import ServerDeploy.Proofs.Resource.Placement

/-! The depth-first expansion of a resource tree. Adding the steps of a tree to a composite puts its
expansion at the end and changes nothing else, and fails where there is no expansion. -/

namespace ServerDeploy

open Address

namespace Resource

def asStep? (op : Operation) : Option Json :=
  if (op.get? Operation.nameKey).any Json.isSomething then some (.obj op) else none

def addStep? (address : Address) (r : Resource) : Option Json :=
  (Operation.addWith address (rawProperties r)).toOption.bind asStep?

theorem eq_of_addStep? {r : Resource} {address : Address} {step : Json}
    (h : addStep? address r = some step) : ∃ op : Operation,
      Operation.addWith address (rawProperties r) = .ok op ∧ step = .obj op := by
  obtain ⟨op, hop, hstep⟩ := Option.bind_eq_some_iff.1 h
  refine ⟨op, ?_, ?_⟩
  · cases hr : Operation.addWith address (rawProperties r) with
    | error e =>
      rw [hr] at hop
      cases hop
    | ok op' =>
      rw [hr] at hop
      cases hop
      rfl
  · unfold asStep? at hstep
    split at hstep
    · cases hstep
      rfl
    · cases hstep

def enableSteps (address : Address) (enable : Bool) : List Json :=
  if enable then [.obj (Operation.enable address)] else []

mutual

/-- The steps of a node and of all nodes below it: its add, the steps of its children in order, and
its enable. There are none unless all adds and all addresses can be made. -/
def expand? (profile : Option String) (segments : Segments) : Resource → Option (List Json)
  | .mk own properties enable addIfAbsent children beforeAdd afterAdd =>
    let address := inProfile profile segments
    (addStep? address (.mk own properties enable addIfAbsent children beforeAdd afterAdd)).bind
      fun add => (expandAll? profile segments children).map fun steps =>
        add :: steps ++ enableSteps address enable

def expandAll? (profile : Option String) (segments : Segments) :
    List Resource → Option (List Json)
  | [] => some []
  | child :: rest =>
    (below? segments child.address).bind fun inner =>
      (expand? profile inner child).bind fun steps =>
        (expandAll? profile segments rest).map fun more => steps ++ more

end

def NotExists (e : Fault) : Prop := ∀ address, e ≠ .deploy (.resourceExists address)

theorem notExists_value (message : String) : NotExists (.value message) := by simp [NotExists]

theorem notExists_unwritable (e : Unwritable) : NotExists (.unwritable e) := by
  cases e <;> simp [NotExists, Fault.unwritable, Fault.oversizeWriting]

theorem notExists_literal (raw : String) (failure : TypedLiteral.Failure) :
    NotExists (.literal raw failure) := by
  cases failure <;> simp [NotExists, Fault.literal, Fault.oversizeReading]

/-- The composite with the given steps at its end, and where there are none a fault. -/
def Appends (c : Composite) (steps? : Option (List Json)) (r : Except Fault Composite) : Prop :=
  match steps? with
  | some steps => r = .ok ⟨c.rollbackOnFailure, c.steps ++ steps⟩
  | none => ∃ e, r = .error e ∧ NotExists e

theorem appends_nil (c : Composite) : Appends c (some []) (.ok c) := by simp [Appends]

theorem Appends.bind {c : Composite} {xs? ys? : Option (List Json)} {r : Except Fault Composite}
    {next : Composite → Except Fault Composite} (h : Appends c xs? r)
    (hnext : ∀ c', Appends c' ys? (next c')) :
    Appends c (xs?.bind fun xs => ys?.map fun ys => xs ++ ys) (r >>= next) := by
  cases xs? with
  | none =>
    obtain ⟨e, rfl, he⟩ := h
    exact ⟨e, rfl, he⟩
  | some xs =>
    obtain rfl : r = .ok ⟨c.rollbackOnFailure, c.steps ++ xs⟩ := h
    have hc := hnext ⟨c.rollbackOnFailure, c.steps ++ xs⟩
    cases ys? with
    | none => exact hc
    | some ys =>
      have hok : next ⟨c.rollbackOnFailure, c.steps ++ xs⟩ =
          .ok ⟨c.rollbackOnFailure, c.steps ++ xs ++ ys⟩ := hc
      rw [List.append_assoc] at hok
      exact hok

theorem addStep_appends (c : Composite) (op : Operation) :
    Appends c ((asStep? op).map fun step => [step]) (c.addStep (.obj op)) := by
  unfold asStep?
  cases hname : Members.get? Operation.nameKey op with
  | none => exact ⟨_, by simp only [Composite.addStep, hname]; rfl, notExists_value _⟩
  | some name =>
    cases hs : name.isSomething with
    | false =>
      simp only [Option.any_some, hs]
      exact ⟨_, by simp only [Composite.addStep, hname, hs]; rfl, notExists_value _⟩
    | true => simp [Appends, Composite.addStep, hname, hs]

theorem setProperty_notExists {op : Operation} {key : String} {raw : RawValue} {e : Fault}
    (h : Operation.setProperty op key raw = .error e) : NotExists e := by
  unfold Operation.setProperty at h
  split at h
  · cases h
    simp [NotExists]
  · split at h
    · cases h
      exact notExists_unwritable _
    · split at h
      · cases h
        exact notExists_literal _ _
      · cases h

theorem setProperties_notExists {op : Operation} {properties : List (String × RawValue)} {e : Fault}
    (h : Operation.setProperties op properties = .error e) : NotExists e := by
  induction properties generalizing op with
  | nil => cases h
  | cons property rest ih =>
    obtain ⟨key, raw⟩ := property
    unfold Operation.setProperties at h
    split at h
    · next e' he =>
      cases h
      exact setProperty_notExists he
    · exact ih h

theorem add_appends (c : Composite) (address : Address) (r : Resource) :
    Appends c ((addStep? address r).map fun step => [step])
      (Operation.addWith address (rawProperties r) >>= fun op => c.addStep (.obj op)) := by
  unfold addStep?
  cases h : Operation.addWith address (rawProperties r) with
  | error e => exact ⟨e, rfl, setProperties_notExists h⟩
  | ok op => exact addStep_appends c op

theorem enable_appends (c : Composite) (address : Address) (enable : Bool) :
    Appends c (some (enableSteps address enable))
      (if enable then c.addStep (.obj (Operation.enable address)) else pure c) := by
  cases enable with
  | false => exact appends_nil c
  | true => exact addStep_appends c (Operation.enable address)

mutual

theorem appendNode_appends (profile : Option String) {text : String} {segments : Segments}
    (h : Writes text segments) (c : Composite) : ∀ r : Resource,
    Appends c (expand? profile segments r)
      (appendNode profile c text (inProfile profile segments) r)
  | .mk own properties enable addIfAbsent children beforeAdd afterAdd => by
    let r : Resource := .mk own properties enable addIfAbsent children beforeAdd afterAdd
    have all := (add_appends c (inProfile profile segments) r).bind fun c =>
      (appendChildren_appends profile h c children).bind fun c =>
        enable_appends c (inProfile profile segments) enable
    rw [bind_assoc] at all
    unfold expand?
    have hsteps : ∀ add? below? : Option _, (add?.map fun step => [step]).bind (fun xs =>
        (below?.bind fun ys => (some (enableSteps (inProfile profile segments) enable)).map
          fun zs => ys ++ zs).map fun ys => xs ++ ys) =
        add?.bind fun add => below?.map fun steps =>
          add :: steps ++ enableSteps (inProfile profile segments) enable := by
      rintro (_ | add) (_ | steps) <;> rfl
    rw [hsteps] at all
    exact all

theorem appendChildren_appends (profile : Option String) {text : String} {segments : Segments}
    (h : Writes text segments) (c : Composite) : ∀ children : List Resource,
    Appends c (expandAll? profile segments children) (appendChildren profile c text children)
  | [] => appends_nil c
  | child :: rest => by
    have hplaced := placeAt_placed profile (some text) child.address
    rw [place?_of_writes h] at hplaced
    unfold expandAll? appendChildren
    cases hin : below? segments child.address with
    | none =>
      rw [hin] at hplaced
      rcases hplaced with he | ⟨part, he⟩
      · exact ⟨_, by rw [he]; rfl, by simp [NotExists]⟩
      · exact ⟨_, by rw [he]; rfl, by simp [NotExists]⟩
    | some inner =>
      rw [hin] at hplaced
      obtain ⟨childText, hwrites, he⟩ := hplaced
      rw [he]
      exact (appendNode_appends profile hwrites c child).bind fun c =>
        appendChildren_appends profile h c rest

end

end Resource

end ServerDeploy
