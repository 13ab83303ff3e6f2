import Mathlib.Data.List.Induction
import ServerDeploy.Proofs.Session.Steps

/-! What a discreet journal shows. Credentials go out only after a challenge, a source is called only for
a refused request, and who is consulted is consulted for such a call. -/

namespace ServerDeploy

open Session

namespace ConnectionEvent

def request? : ConnectionEvent → Option Request
  | .exchanged _ request _ => some request
  | _ => none

def isAsked : ConnectionEvent → Bool
  | .asked _ => true
  | _ => false

def isFound : ConnectionEvent → Bool
  | .found _ => true
  | _ => false

def isAskedBy (id : Nat) : ConnectionEvent → Bool
  | .asked other => other == id
  | _ => false

def isFoundBy (id : Nat) : ConnectionEvent → Bool
  | .found other => other == id
  | _ => false

def isConsulted (informant : Informant) : ConnectionEvent → Bool
  | .consulted other => other == informant
  | _ => false

/-- What may be done after what was done before. -/
def Permitted (past : List ConnectionEvent) : ConnectionEvent → Prop
  | .lookedUp _ => True
  | .exchanged id request _ => request.user.isSome = true → Challenged id past
  | .asked id => JustRefused id past ∧ .found id ∉ past
  | .consulted informant => (∀ id, .found id ∉ past) ∧
    ∃ id consulted, Asking id consulted past ∧ informant ∉ consulted
  | .found id => ∃ consulted, Asking id consulted past

end ConnectionEvent

open ConnectionEvent

def Discreet (journal : List ConnectionEvent) : Prop :=
  ∀ past e rest, journal = past ++ e :: rest → Permitted past e

namespace Discreet

variable {journal : List ConnectionEvent} {e : ConnectionEvent}

theorem nil : Discreet [] := by
  intro past e rest h
  cases past <;> cases h

theorem concat (h : Discreet journal) (he : Permitted journal e) : Discreet (journal ++ [e]) := by
  intro past e' rest hsplit
  rcases List.eq_nil_or_concat rest with rfl | ⟨rest, last, rfl⟩
  · obtain ⟨rfl, hlast⟩ := List.append_inj' hsplit rfl
    cases hlast
    exact he
  · have hlast : journal ++ [e] = (past ++ e' :: rest) ++ [last] := by simpa using hsplit
    exact h past e' rest (List.append_inj' hlast rfl).1

theorem of_concat (h : Discreet (journal ++ [e])) : Discreet journal ∧ Permitted journal e := by
  refine ⟨fun past e' rest hsplit => h past e' (rest ++ [e]) ?_, h journal e [] rfl⟩
  rw [hsplit, List.append_assoc, List.cons_append]

theorem asking_concat {id : Nat} {is : List Informant} (h : Asking id is (journal ++ [e])) :
    (e = .asked id ∧ is = []) ∨ ∃ i before, e = .consulted i ∧ is = before ++ [i] ∧
      Asking id before journal := by
  obtain ⟨past, hpast⟩ := h
  rcases List.eq_nil_or_concat is with rfl | ⟨before, i, rfl⟩
  · exact .inl ⟨by simpa using (List.append_inj' hpast rfl).2, rfl⟩
  · have hlast : journal ++ [e] =
        (past ++ .asked id :: before.map ConnectionEvent.consulted) ++ [.consulted i] := by
      simpa using hpast
    obtain ⟨hjournal, he⟩ := List.append_inj' hlast rfl
    exact .inr ⟨i, before, by simpa using he, by simp, past, hjournal⟩

theorem not_asking_nil {id : Nat} {is : List Informant} : ¬Asking id is [] := by
  rintro ⟨past, hpast⟩
  simp at hpast

theorem asking_asked {id other : Nat} {is : List Informant}
    (h : Asking id is (journal ++ [.asked other])) : other = id := by
  rcases asking_concat h with ⟨he, -⟩ | ⟨_, _, he, -⟩
  · exact ConnectionEvent.asked.inj he
  · cases he

theorem asking_consulted {id : Nat} {is : List Informant} {i : Informant}
    (h : Asking id is (journal ++ [.consulted i])) :
    ∃ before, is = before ++ [i] ∧ Asking id before journal := by
  rcases asking_concat h with ⟨he, -⟩ | ⟨_, before, he, his, hbefore⟩
  · cases he
  · cases he
    exact ⟨before, his, hbefore⟩

theorem not_asking_concat {id : Nat} {is : List Informant} (hasked : ∀ id, e ≠ .asked id)
    (hconsulted : ∀ i, e ≠ .consulted i) : ¬Asking id is (journal ++ [e]) := by
  intro h
  rcases asking_concat h with ⟨he, -⟩ | ⟨i, _, he, -⟩
  · exact hasked id he
  · exact hconsulted i he

theorem countP_isFoundBy_eq_zero {id : Nat} (h : .found id ∉ journal) :
    journal.countP (isFoundBy id) = 0 := by
  refine List.countP_eq_zero.mpr fun e hmem => ?_
  cases e with
  | found other =>
    have hother : other ≠ id := by
      rintro rfl
      exact h hmem
    simp [isFoundBy, hother]
  | _ => simp [isFoundBy]

theorem countP_isFound_eq_zero (h : ∀ id, .found id ∉ journal) : journal.countP isFound = 0 := by
  refine List.countP_eq_zero.mpr fun e hmem => ?_
  cases e with
  | found id => exact absurd hmem (h id)
  | _ => simp [isFound]

/-- A session is found credentials once, and not while a call for them goes on. -/
theorem found_once (h : Discreet journal) (id : Nat) : journal.countP (isFoundBy id) ≤ 1 ∧
    ∀ is, Asking id is journal → journal.countP (isFoundBy id) = 0 := by
  -- by the last event, which the events before it permit
  induction journal using List.reverseRecOn with
  | nil => exact ⟨by simp, fun is hasking => absurd hasking not_asking_nil⟩
  | append_singleton journal e ih =>
    obtain ⟨hjournal, he⟩ := h.of_concat
    obtain ⟨hle, hzero⟩ := ih hjournal
    rw [List.countP_append, List.countP_singleton]
    cases e with
    | found other =>
      refine ⟨?_, fun is hasking => absurd hasking (not_asking_concat nofun nofun)⟩
      by_cases hother : other = id
      · subst hother
        obtain ⟨is, hasking⟩ := he
        simp [isFoundBy, hzero is hasking]
      · simpa [isFoundBy, hother] using hle
    | asked other =>
      refine ⟨by simpa [isFoundBy] using hle, fun is hasking => ?_⟩
      obtain rfl := asking_asked hasking
      simp [isFoundBy, countP_isFoundBy_eq_zero he.2]
    | consulted i =>
      refine ⟨by simpa [isFoundBy] using hle, fun is hasking => ?_⟩
      obtain ⟨before, -, hbefore⟩ := asking_consulted hasking
      simp [isFoundBy, hzero before hbefore]
    | _ =>
      exact ⟨by simpa [isFoundBy] using hle, fun is hasking =>
        absurd hasking (not_asking_concat nofun nofun)⟩

/-- How often somebody was consulted, against the calls for credentials: while one goes on it has found
nothing, and those it has not consulted yet lag behind. -/
structure Tallied (i : Informant) (journal : List ConnectionEvent) : Prop where
  total : journal.countP (isConsulted i) + journal.countP isFound ≤ journal.countP isAsked + 1
  unfound : journal.countP isFound = 0 → journal.countP (isConsulted i) ≤ journal.countP isAsked
  going : ∀ id is, Asking id is journal →
    journal.countP (isConsulted i) + journal.countP isFound ≤ journal.countP isAsked
  fresh : ∀ id is, Asking id is journal → journal.countP isFound = 0 → i ∉ is →
    journal.countP (isConsulted i) < journal.countP isAsked

section Tallied

variable {i : Informant}

theorem Tallied.asked (h : Tallied i journal) (id : Nat) : Tallied i (journal ++ [.asked id]) := by
  have htotal := h.total
  have hunfound := h.unfound
  have hcount : (journal ++ [ConnectionEvent.asked id]).countP (isConsulted i) =
      journal.countP (isConsulted i) := by simp [isConsulted]
  have hasked : (journal ++ [ConnectionEvent.asked id]).countP isAsked =
      journal.countP isAsked + 1 := by simp [isAsked]
  have hfound : (journal ++ [ConnectionEvent.asked id]).countP isFound =
      journal.countP isFound := by simp [isFound]
  refine ⟨?_, fun hf => ?_, fun _ _ _ => ?_, fun _ _ _ hf _ => ?_⟩ <;> omega

/-- Who is consulted has not been consulted in the call that goes on. -/
theorem Tallied.consulted (h : Tallied i journal) {id : Nat} {is : List Informant} {j : Informant}
    (hf : journal.countP isFound = 0) (hasking : Asking id is journal) (hj : j ∉ is) :
    Tallied i (journal ++ [.consulted j]) := by
  have hunfound := h.unfound hf
  have hlag : j = i → journal.countP (isConsulted i) < journal.countP isAsked := by
    rintro rfl
    exact h.fresh id is hasking hf hj
  have hcount : (journal ++ [ConnectionEvent.consulted j]).countP (isConsulted i) =
      journal.countP (isConsulted i) + if j = i then 1 else 0 := by
    simp [isConsulted]
  have hasked : (journal ++ [ConnectionEvent.consulted j]).countP isAsked =
      journal.countP isAsked := by
    simp [isAsked]
  have hfound : (journal ++ [ConnectionEvent.consulted j]).countP isFound = 0 := by
    simp [isFound, hf]
  refine ⟨?_, fun _ => ?_, fun _ _ _ => ?_, fun other is' hlater _ hout => ?_⟩
  case refine_4 =>
    obtain ⟨before, rfl, hbefore⟩ := asking_consulted hlater
    rw [List.mem_append, List.mem_singleton, not_or] at hout
    rw [hcount, hasked, if_neg (Ne.symm hout.2)]
    exact h.fresh other before hbefore hf hout.1
  all_goals
    split at hcount
    · next hi =>
      have hless := hlag hi
      omega
    · omega

theorem Tallied.found (h : Tallied i journal) {id : Nat} {is : List Informant}
    (hasking : Asking id is journal) : Tallied i (journal ++ [.found id]) := by
  have hgoing := h.going id is hasking
  have idle {other : Nat} {is' : List Informant} :
      ¬Asking other is' (journal ++ [.found id]) := not_asking_concat nofun nofun
  refine ⟨?_, ?_, fun _ _ hlater => absurd hlater idle, fun _ _ hlater => absurd hlater idle⟩
  · simp [isConsulted, isFound, isAsked]
    omega
  · simp [isFound]

/-- What has nothing to do with credentials is not counted. -/
theorem Tallied.other (h : Tallied i journal) (hasked : ∀ id, e ≠ .asked id)
    (hconsulted : ∀ j, e ≠ .consulted j) (hfound : ∀ id, e ≠ .found id) :
    Tallied i (journal ++ [e]) := by
  have idle {id : Nat} {is : List Informant} : ¬Asking id is (journal ++ [e]) :=
    not_asking_concat hasked hconsulted
  have uncounted : isConsulted i e = false ∧ isFound e = false ∧ isAsked e = false := by
    cases e with
    | asked id => exact absurd rfl (hasked id)
    | consulted j => exact absurd rfl (hconsulted j)
    | found id => exact absurd rfl (hfound id)
    | _ => exact ⟨rfl, rfl, rfl⟩
  refine ⟨?_, ?_, fun _ _ hlater => absurd hlater idle, fun _ _ hlater => absurd hlater idle⟩
  · simpa [uncounted] using h.total
  · simpa [uncounted] using h.unfound

end Tallied

theorem tallied (h : Discreet journal) (i : Informant) : Tallied i journal := by
  induction journal using List.reverseRecOn with
  | nil => exact ⟨by simp, by simp, fun _ _ h => absurd h not_asking_nil,
      fun _ _ h => absurd h not_asking_nil⟩
  | append_singleton journal e ih =>
    obtain ⟨hjournal, he⟩ := h.of_concat
    have hbefore := ih hjournal
    cases e with
    | asked id => exact hbefore.asked id
    | consulted j =>
      obtain ⟨hnone, id, is, hasking, hj⟩ := he
      exact hbefore.consulted (countP_isFound_eq_zero hnone) hasking hj
    | found id =>
      obtain ⟨is, hasking⟩ := he
      exact hbefore.found hasking
    | _ => exact hbefore.other nofun nofun nofun

/-- Whoever is consulted is consulted because a request was refused. -/
theorem refused_of_consulted (h : Discreet journal) {i : Informant}
    (hi : .consulted i ∈ journal) :
    ∃ id request reply, .exchanged id request reply ∈ journal ∧ isRefusal reply = true := by
  obtain ⟨past, rest, rfl⟩ := List.append_of_mem hi
  obtain ⟨-, id, is, ⟨before, rfl⟩, -⟩ := h past _ rest rfl
  have hsplit : before ++ .asked id :: is.map ConnectionEvent.consulted ++ .consulted i :: rest =
      before ++ .asked id :: (is.map ConnectionEvent.consulted ++ .consulted i :: rest) := by simp
  obtain ⟨⟨request, reply, hlast, hrefused⟩, -⟩ := h before _ _ hsplit
  exact ⟨id, request, reply, by simp [List.mem_of_getLast? hlast], hrefused⟩

end Discreet

/-- What a journal shows about credentials, with all calls for them and all who were consulted. -/
structure Confidential (journal : List ConnectionEvent) : Prop where
  challenged : ∀ past id request reply rest, journal = past ++ .exchanged id request reply :: rest →
    request.user.isSome = true → Challenged id past
  /-- A source is called right after a refusal, and never again once it has given credentials. -/
  refused : ∀ past id rest, journal = past ++ .asked id :: rest →
    JustRefused id past ∧ .found id ∉ past
  /-- A source that gave credentials whenever it was called was called at most once. -/
  askedOnce : ∀ id, journal.countP (isAskedBy id) = journal.countP (isFoundBy id) →
    journal.countP (isAskedBy id) ≤ 1
  /-- Nobody is consulted any more once credentials were found. -/
  unfound : ∀ past i rest, journal = past ++ .consulted i :: rest → ∀ id, .found id ∉ past
  /-- Everybody is consulted at most once, and once more for each call that ended in a fault. -/
  consultedOnce : ∀ i, journal.countP (isConsulted i) ≤
    1 + (journal.countP isAsked - journal.countP isFound)
  unrefused : (∀ id request reply, .exchanged id request reply ∈ journal →
    isRefusal reply = false) → ∀ i, .consulted i ∉ journal

theorem Discreet.confidential {journal : List ConnectionEvent} (h : Discreet journal) :
    Confidential journal where
  challenged _ _ _ _ _ hsplit := h _ _ _ hsplit
  refused _ _ _ hsplit := h _ _ _ hsplit
  askedOnce id heq := heq ▸ (h.found_once id).1
  unfound _ _ _ hsplit := (h _ _ _ hsplit).1
  consultedOnce i := by
    have htotal := (h.tallied i).total
    omega
  unrefused hall i hi := by
    obtain ⟨id, request, reply, hmem, hrefused⟩ := h.refused_of_consulted hi
    rw [hall id request reply hmem] at hrefused
    cases hrefused

end ServerDeploy
