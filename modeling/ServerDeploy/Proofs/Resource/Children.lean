import ServerDeploy.Proofs.Resource.Composing

/-! The children that a server reports, in any of the shapes in which it may do so. Whether a resource is
there and how many of its kind there are depends on their names alone; a read that does not succeed is an
error with the description that the server gave. -/

namespace ServerDeploy

namespace AddressOf

variable {α : Type}

theorem exists_push {a : AddressOf α} (h : a.isEmpty = false) :
    ∃ parent key value, a = push parent key value := by
  obtain ⟨segments⟩ := a
  have hne : segments ≠ [] := by simpa [isEmpty] using h
  exact ⟨⟨segments.dropLast⟩, _, _, congrArg mk (List.dropLast_concat_getLast hne).symm⟩

theorem push_inj {a b : AddressOf α} {k l : String} {u v : α} (h : a.push k u = b.push l v) :
    a = b ∧ k = l ∧ u = v := by
  obtain ⟨segments⟩ := a
  obtain ⟨others⟩ := b
  obtain ⟨rfl, hlast⟩ := List.append_inj' (AddressOf.mk.inj h) rfl
  simpa using hlast

@[simp] theorem child?_push (a : AddressOf α) (key : String) (value : α) :
    (a.push key value).child? = some (key, value) := by
  simp [push, child?]

@[simp] theorem parent?_push (a : AddressOf α) (key : String) (value : α) :
    (a.push key value).parent? = some a := by
  simp [push, parent?]

end AddressOf

namespace Existence

/-- Children with these names, as a server may report them: an object that is keyed by them, a list of
them, or a list of objects that are keyed by some of them each. -/
inductive Tells (names : List String) : Json → Prop where
  | keyed {members : Members} (h : members.map Prod.fst = names) : Tells names (.obj members)
  | listed : Tells names (.arr (names.map .str))
  | grouped {groups : List Members} (h : groups.flatMap (fun members => members.map Prod.fst) = names) :
    Tells names (.arr (groups.map .obj))

/-- There are no children of the kind: no entry for it, a null one, or one that reports no names. -/
inductive Childless (kind : String) (o : Outcome) : Prop where
  | absent (h : o.result.member? kind = none)
  | null (h : o.result.member? kind = some .null)
  | empty {children : Json} (h : o.result.member? kind = some children) (hnone : Tells [] children)

theorem entryNames_texts (names : List String) : entryNames (names.map .str) = names := by
  induction names with
  | nil => rfl
  | cons name names ih =>
    rw [List.map_cons, entryNames, ih, Json.text]
    intro members h
    cases h

theorem entryNames_groups (groups : List Members) :
    entryNames (groups.map .obj) = groups.flatMap fun members => members.map Prod.fst := by
  induction groups with
  | nil => rfl
  | cons members groups ih => rw [List.map_cons, entryNames, ih, List.flatMap_cons]

theorem Tells.childNames {names : List String} {children : Json} (h : Tells names children) :
    childNames children = .ok names := by
  cases h with
  | keyed h => exact congrArg Except.ok h
  | listed => exact congrArg Except.ok (entryNames_texts names)
  | grouped h => exact congrArg Except.ok ((entryNames_groups _).trans h)

/-- What counts as nothing has no names. -/
theorem Tells.eq_nil {names : List String} {children : Json} (h : Tells names children)
    (hnothing : children.isSomething = false) : names = [] := by
  cases h with
  | keyed h => simpa [Json.isSomething, ← h] using hnothing
  | listed => simpa [Json.isSomething] using hnothing
  | @grouped groups h =>
    have hgroups : groups = [] := by simpa [Json.isSomething] using hnothing
    rw [← h, hgroups, List.flatMap_nil]

theorem ofResult_tells {kind : String} {o : Outcome} {names : List String} {children : Json}
    (hchildren : o.result.member? kind = some children) (h : Tells names children) (name : String) :
    ofResult kind name o.result = .ok ⟨decide (name ∈ names), names.length⟩ := by
  unfold ofResult
  rw [hchildren, Option.getD_some]
  dsimp only
  cases hsomething : children.isSomething with
  | false =>
    obtain rfl := h.eq_nil hsomething
    rfl
  | true =>
    rw [h.childNames]
    simp [Except.map]

theorem ofResult_childless {kind : String} {o : Outcome} (h : Childless kind o) (name : String) :
    ofResult kind name o.result = .ok ⟨false, 0⟩ := by
  cases h with
  | absent h =>
    unfold ofResult
    rw [h]
    rfl
  | null h =>
    unfold ofResult
    rw [h]
    rfl
  | empty h hnone => exact ofResult_tells h hnone name

variable {σ : Type} [Endpoint σ]

theorem check_push {client : Nat} {parent : Address} {w w' : World σ} {o : Outcome} (kind name : String)
    (hread : Client.execute client (.obj (Operation.readResource parent false)) w = (.ok o, w')) :
    check client (parent.push kind name) w =
      (if o.isSuccessful then ofResult kind name o.result else .error (.deploy o.toError), w') := by
  unfold check
  simp only [AddressOf.child?_push, AddressOf.parent?_push]
  rw [Run.bind_of_ok hread]
  cases o.isSuccessful with
  | true => simp
  | false => simp [Run.bind_apply]

/-- A resource is looked for by a read of its parent. It is there just when its name is among those of
the children of its kind, however they are reported; where there are none it is not; and a read that does
not succeed is an error with the server's own description, if it gave one. -/
theorem check_answers (client : Nat) {address : Address} (hne : address.isEmpty = false) :
    ∃ parent kind name, address = parent.push kind name ∧ ∀ (w w' : World σ) (o : Outcome),
      Client.execute client (.obj (Operation.readResource parent false)) w = (.ok o, w') →
        (o.isSuccessful = true →
          (∀ names children, o.result.member? kind = some children → Tells names children →
            check client address w = (.ok ⟨decide (name ∈ names), names.length⟩, w')) ∧
          (Childless kind o → check client address w = (.ok ⟨false, 0⟩, w'))) ∧
        (o.isSuccessful = false → ∃ message,
          check client address w = (.error (.deploy (.operationFailed message o.failure)), w') ∧
          ∀ d, o.get? Outcome.failureKey = some d → d ≠ .null →
            (DeployError.operationFailed message o.failure).description = d) := by
  obtain ⟨parent, kind, name, rfl⟩ := AddressOf.exists_push hne
  refine ⟨parent, kind, name, rfl, fun w w' o hread => ?_⟩
  rw [check_push kind name hread]
  refine ⟨fun hsuccess => ⟨fun names children hchildren htells => ?_, fun hnone => ?_⟩, fun hfailed => ?_⟩
  · rw [if_pos hsuccess, ofResult_tells hchildren htells]
  · rw [if_pos hsuccess, ofResult_childless hnone]
  · refine ⟨o.failureText, by simp [hfailed, Outcome.toError], fun d hd hsomething => ?_⟩
    have hfailure : o.failure = d := by rw [Outcome.failure, hd, Option.getD_some]
    rw [hfailure]
    cases d with
    | null => exact absurd rfl hsomething
    | bool | int | num | str | arr | obj => rfl

def loggerA : Address := ⟨[("subsystem", "logging"), ("logger", "a")]⟩

/-- Three loggers in two groups. -/
def groupedLoggers : Json :=
  .arr [.obj [("b", .null), ("a", .null)], .obj [("c", .obj [("level", .str "INFO")])]]

def loggersRead : Outcome :=
  [("outcome", .str "success"), ("result", .obj [("logger", groupedLoggers)])]

def loggersUnread : Outcome :=
  [("outcome", .str "failed"), ("failure-description", .obj [("WFLYCTL0216", .str "not found")])]

def answering (status : Nat) (o : Outcome) : World Script := World.ready [.answer status (.json (.obj o))]

theorem check_answers_loggers :
    (check 0 loggerA (answering 200 loggersRead)).1 = .ok ⟨true, 3⟩ ∧
      ∃ e, (check 0 loggerA (answering 500 loggersUnread)).1 = .error (.deploy e) ∧
        e.description = .obj [("WFLYCTL0216", .str "not found")] := by
  have hne : loggerA.isEmpty = false := rfl
  obtain ⟨parent, kind, name, haddress, hanswers⟩ := check_answers (σ := Script) 0 hne
  have hlogger : loggerA = AddressOf.push ⟨[("subsystem", "logging")]⟩ "logger" "a" := rfl
  obtain ⟨rfl, rfl, rfl⟩ := AddressOf.push_inj (hlogger.symm.trans haddress)
  constructor
  · have htells : Tells ["b", "a", "c"] groupedLoggers :=
      @Tells.grouped _ [[("b", .null), ("a", .null)], [("c", .obj [("level", .str "INFO")])]] rfl
    obtain ⟨hfound, -⟩ := (hanswers (answering 200 loggersRead) _ loggersRead rfl).1 rfl
    rw [hfound _ _ rfl htells]
    rfl
  · obtain ⟨message, hrefused, hdescribed⟩ :=
      (hanswers (answering 500 loggersUnread) _ loggersUnread rfl).2 rfl
    exact ⟨_, congrArg Prod.fst hrefused, hdescribed _ rfl nofun⟩

end Existence

end ServerDeploy
