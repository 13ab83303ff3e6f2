import ServerDeploy.Proofs.Command.Grammar
import ServerDeploy.Proofs.Json.Members
import ServerDeploy.Proofs.Model.Composite

/-! The name and the address of a command's operation. The parameters are set behind them in the same
object, so a parameter of either name takes its place. -/

namespace ServerDeploy

namespace Command

namespace Form

variable (f : Form)

def writtenName : Json := .str (String.ofList f.name)

def writtenAddress : Json := AddressOf.model (α := String) ⟨f.segments⟩

/-- The value that is given last to a parameter of this name. -/
def given (key : String) : Option Json := Members.get? key f.parameters.reverse

theorem given_eq_none_iff {key : String} : f.given key = none ↔ key ∉ f.parameters.map (·.1) := by
  simp [given, Members.get?_eq_none_iff]

theorem get?_operation (key : String) : f.operation.get? key =
    (f.given key).or
      (Members.get? key [(Operation.nameKey, f.writtenName), (Operation.addressKey, f.writtenAddress)]) :=
  Members.get?_setAll key _ f.parameters

theorem get?_name : f.operation.get? Operation.nameKey =
    some ((f.given Operation.nameKey).getD f.writtenName) := by
  rw [get?_operation]
  cases f.given Operation.nameKey <;> simp [Members.get?]

theorem get?_address : f.operation.get? Operation.addressKey =
    some ((f.given Operation.addressKey).getD f.writtenAddress) := by
  have hkeys : Operation.nameKey ≠ Operation.addressKey := by decide
  rw [get?_operation]
  cases f.given Operation.addressKey <;> simp [Members.get?, hkeys]

theorem isSomething_writtenName {command : String} (h : f.Of command) :
    f.writtenName.isSomething = true := by
  have hname := h.named
  simp [writtenName, Json.isSomething, hname]

end Form

theorem some_getD_eq_iff {α : Type} {given : Option α} {written : α} :
    some (given.getD written) = some written ↔ ∀ v ∈ given, v = written := by
  cases given <;> simp

/-- The operation has the written name exactly when the parameters do not end up with another value for
it, and likewise the address; and it can be a step of a composite exactly when they do not end up with
an empty name. In particular parameters of other names change neither. -/
theorem read_framed {command : String} {op : Operation} (h : read command = .ok op) :
    (∃ f : Form, f.Of command) ∧ ∀ f : Form, f.Of command → op = f.operation ∧
      (op.get? Operation.nameKey = some f.writtenName ↔
        ∀ v ∈ f.given Operation.nameKey, v = f.writtenName) ∧
      (op.get? Operation.addressKey = some f.writtenAddress ↔
        ∀ v ∈ f.given Operation.addressKey, v = f.writtenAddress) ∧
      (∀ c : Composite, (∃ d, c.addStep (.obj op) = .ok d) ↔
        ∀ v ∈ f.given Operation.nameKey, v.isSomething = true) ∧
      ∀ key, f.given key = none ↔ key ∉ f.parameters.map (·.1) := by
  constructor
  · obtain ⟨f, hf, -⟩ := read_eq_ok_iff.1 h
    exact ⟨f, hf⟩
  · intro f hf
    have hread : read command = .ok f.operation := read_eq_ok_iff.2 ⟨f, hf, rfl⟩
    obtain rfl : op = f.operation := Except.ok.inj (h.symm.trans hread)
    refine ⟨rfl, ?_, ?_, fun c => ?_, fun key => f.given_eq_none_iff⟩
    · rw [f.get?_name, some_getD_eq_iff]
    · rw [f.get?_address, some_getD_eq_iff]
    · rw [Composite.addStep_obj_iff, f.get?_name]
      have hwritten := f.isSomething_writtenName hf
      cases f.given Operation.nameKey <;> simp [hwritten]

def redirected : Form where
  address := "/subsystem=logging".toList
  request := "add(operation=remove)".toList
  nodes := ["subsystem=logging".toList]
  segments := [("subsystem", "logging")]
  name := "add".toList
  parts := ["operation=remove".toList]
  parameters := [("operation", .str "remove")]

theorem redirected_of : redirected.Of "/subsystem=logging:add(operation=remove)" where
  text := by decide
  whole := whole_of_not_mem (by decide) (by decide)
  closed := by decide
  nodes := by
    have hnode : ∀ node ∈ redirected.nodes, Whole '/' node :=
      List.forall_mem_singleton.2 (whole_of_not_mem (by decide) (by decide))
    exact .nodes (by decide) hnode
  segments := .cons (@ReadsNode.node "subsystem".toList "logging".toList (by decide) (by decide)
    (by decide)) .nil
  request := by
    have hpart : ∀ part ∈ redirected.parts, Whole ',' part :=
      List.forall_mem_singleton.2 (whole_of_not_mem (by decide) (by decide))
    exact @WritesRequest.parameters "add".toList "operation=remove".toList _ (by decide) (by decide)
      (by decide) (not_allBlank_cons (by decide) _) hpart
  named := by decide
  parameters := by
    have hvalue : readValue "remove".toList = .ok (.str "remove") := rfl
    exact .cons (@ReadsParameter.assigned "operation".toList _ _ (by decide)
      (not_allBlank_cons (by decide) _) hvalue) .nil

theorem read_framed_redirected :
    read "/subsystem=logging:add(operation=remove)" = .ok redirected.operation ∧
      redirected.operation.get? Operation.nameKey ≠ some (.str "add") := by
  have hread : read "/subsystem=logging:add(operation=remove)" = .ok redirected.operation :=
    read_eq_ok_iff.2 ⟨redirected, redirected_of, rfl⟩
  refine ⟨hread, fun hname => ?_⟩
  have hgiven := ((read_framed hread).2 redirected redirected_of).2.1.1 hname (.str "remove") rfl
  have hne : "remove" ≠ String.ofList redirected.name := by decide
  exact hne (Json.str.inj hgiven)

end Command

end ServerDeploy
