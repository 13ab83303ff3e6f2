import ServerDeploy.Fault

/-! Which faults a computation may end in. What is worked out from texts and values alone fails
plainly; how much more can go wrong depends on how far a computation reaches. -/

namespace ServerDeploy

namespace Fault

/-- An error for the operator, a text or number that cannot be converted, or a value of the wrong
shape. -/
def Plain : Fault → Prop
  | .deploy _ | .value _ | .shape => True
  | _ => False

/-- How far a computation reaches beyond values: to a server by way of a client, with files, the
process and the operator; to the endpoint itself; to repositories, from which it downloads; to
distributions, which it unpacks. -/
inductive Reach where
  | server
  | endpoint
  | repositories
  | distributions
  deriving DecidableEq, Repr

/-- The faults of a reach. A closed session and a refused command line are in none. -/
def In (reach : Reach) : Fault → Prop
  | .deploy _ | .value _ | .shape | .interrupted | .system _ | .invalidYaml => True
  | .transport _ => reach ≠ .server
  | .redirectLimit => reach = .repositories ∨ reach = .distributions
  | .brokenArchive => reach = .distributions
  | .closedSession | .usage _ => False

theorem In.of_plain {e : Fault} (h : e.Plain) (reach : Reach) : e.In reach := by
  cases e <;> trivial

theorem In.of_server {e : Fault} (h : e.In .server) (reach : Reach) : e.In reach := by
  cases e with
  | transport reason => exact absurd rfl h
  | redirectLimit => rcases h with h | h <;> cases h
  | brokenArchive => cases h
  | _ => exact h

theorem In.server_of_endpoint {e : Fault} (h : e.In .endpoint) (ht : ∀ reason, e ≠ .transport reason) :
    e.In .server := by
  cases e with
  | transport reason => exact absurd rfl (ht reason)
  | redirectLimit => rcases h with h | h <;> cases h
  | brokenArchive => cases h
  | _ => exact h

theorem In.of_repositories {e : Fault} (h : e.In .repositories) : e.In .distributions := by
  cases e with
  | transport reason => exact nofun
  | redirectLimit => exact .inr rfl
  | brokenArchive => rfl
  | _ => exact h

theorem plain_unwritable (e : Unwritable) : (unwritable e).Plain := by
  cases e <;> trivial

theorem plain_literal (raw : String) (failure : TypedLiteral.Failure) : (literal raw failure).Plain := by
  cases failure <;> trivial

end Fault

section Bind

variable {ε α β : Type} {x : Except ε α}

theorem eq_ok_of_bind {next : α → Except ε β} {v : β} (h : x >>= next = .ok v) :
    ∃ a, x = .ok a ∧ next a = .ok v := by
  cases x with
  | error e => cases h
  | ok a => exact ⟨a, rfl, h⟩

theorem bind_congr_ok {f g : α → Except ε β} (h : ∀ a, x = .ok a → f a = g a) :
    x >>= f = x >>= g := by
  cases x with
  | error e => rfl
  | ok a => exact h a rfl

end Bind

/-- If there is no result, the failure is one of which `P` is true. -/
def Fails {ε α : Type} (P : ε → Prop) (r : Except ε α) : Prop := ∀ e, r = .error e → P e

section Fails

variable {ε ε' α β : Type} {P : ε → Prop}

theorem fails_ok (v : α) : Fails P (.ok v : Except ε α) := nofun

theorem fails_error {e : ε} (h : P e) : Fails P (.error e : Except ε α) := fun _ he => by
  cases he
  exact h

theorem Fails.bind_ok {r : Except ε α} {next : α → Except ε β} (h : Fails P r)
    (hnext : ∀ v, r = .ok v → Fails P (next v)) : Fails P (r >>= next) := by
  cases r with
  | error e => exact fails_error (h e rfl)
  | ok v => exact hnext v rfl

theorem Fails.bind {r : Except ε α} {next : α → Except ε β} (h : Fails P r)
    (hnext : ∀ v, Fails P (next v)) : Fails P (r >>= next) := h.bind_ok fun v _ => hnext v

theorem Fails.map {r : Except ε α} (h : Fails P r) (f : α → β) : Fails P (r.map f) := by
  cases r with
  | error e => exact fails_error (h e rfl)
  | ok v => exact fails_ok _

theorem fails_mapError {P : ε' → Prop} {r : Except ε α} {f : ε → ε'} (h : ∀ e, P (f e)) :
    Fails P (r.mapError f) := by
  cases r with
  | error e => exact fails_error (h e)
  | ok v => exact fails_ok _

theorem fails_mapM {f : α → Except ε β} {xs : List α} (h : ∀ x ∈ xs, Fails P (f x)) :
    Fails P (xs.mapM f) := by
  induction xs with
  | nil => exact fails_ok _
  | cons x xs ih =>
    rw [List.mapM_cons]
    refine (h x List.mem_cons_self).bind fun y => ?_
    exact (ih fun x hx => h x (.tail _ hx)).bind fun ys => fails_ok _

theorem fails_foldlM {f : β → α → Except ε β} (h : ∀ b x, Fails P (f b x)) (b : β) (xs : List α) :
    Fails P (xs.foldlM f b) := by
  induction xs generalizing b with
  | nil => exact fails_ok _
  | cons x xs ih =>
    rw [List.foldlM_cons]
    exact (h b x).bind ih

end Fails

/-- A computation from values alone, whose failures are plain. -/
abbrev Plainly {α : Type} (r : Except Fault α) : Prop := Fails Fault.Plain r

end ServerDeploy
