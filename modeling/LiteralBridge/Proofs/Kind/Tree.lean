import LiteralBridge.Kind

/-! # Kinds as trees

Induction over a kind with a hypothesis for every position of a tuple, and the kinds that leave
nothing to the text. -/

namespace LiteralBridge.Kind

/-! ## Induction -/

section Induction

variable {motive : Kind → Prop} (any : motive any) (null : motive null) (boolean : motive boolean)
  (integer : motive integer) (float : motive float) (string : motive string) (enum : motive enum)
  (enumSet : motive enumSet) (array : ∀ item, motive item → motive (array item))
  (matrix : ∀ item, motive item → motive (matrix item))
  (tuple : ∀ items, (∀ item ∈ items, motive item) → motive (tuple items))
  (dict : ∀ value, motive value → motive (dict value)) (object : motive object)
include any null boolean integer float string enum enumSet array matrix tuple dict object

@[elab_as_elim, induction_eliminator]
theorem tree_induction (kind : Kind) : motive kind := by
  refine @Kind.rec motive (fun items => ∀ item ∈ items, motive item) any null boolean integer float
    string enum enumSet array matrix tuple dict object ?_ ?_ kind
  · exact List.forall_mem_nil _
  · intro item rest hitem hrest
    exact List.forall_mem_cons.mpr ⟨hitem, hrest⟩

end Induction

/-! ## Kinds that leave nothing to the text -/

mutual

/-- Nowhere in the kind is it left to the text what is meant. -/
def Explicit : Kind → Prop
  | any => False
  | array item | matrix item | dict item => item.Explicit
  | tuple items => ExplicitAll items
  | _ => True

def ExplicitAll : List Kind → Prop
  | [] => True
  | kind :: rest => kind.Explicit ∧ ExplicitAll rest

end

theorem explicitAll_iff {kinds : List Kind} : ExplicitAll kinds ↔ ∀ kind ∈ kinds, kind.Explicit := by
  induction kinds with
  | nil => simp [ExplicitAll]
  | cons kind rest ih => simp only [ExplicitAll, ih, List.forall_mem_cons]

end LiteralBridge.Kind
