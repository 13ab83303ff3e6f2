import ServerDeploy.Proofs.World.Run

/-! Conversations with the endpoint. Whatever a computation does, the record of requests grows by the
requests of a conversation, and the endpoint has answered just these. -/

namespace ServerDeploy

structure Exchange where
  request : Request
  reply : Reply

/-- The endpoint answers requests in order and goes from one state to another. -/
inductive Conversation {σ : Type} [Endpoint σ] : σ → List Exchange → σ → Prop
  | nil (s : σ) : Conversation s [] s
  | cons {s s' t : σ} {x : Exchange} {rest : List Exchange}
      (h : Endpoint.answer s x.request = (x.reply, s')) (hrest : Conversation s' rest t) :
      Conversation s (x :: rest) t

theorem Conversation.append {σ : Type} [Endpoint σ] {s t u : σ} {xs ys : List Exchange}
    (h : Conversation s xs t) (h' : Conversation t ys u) : Conversation s (xs ++ ys) u := by
  induction h with
  | nil s => exact h'
  | cons hx _ ih => exact .cons hx (ih h')

/-- Things that are said to the endpoint: single exchanges, or calls that take several. -/
class Spoken (ι : Type) where
  exchanges : ι → List Exchange

instance : Spoken Exchange := ⟨fun x => [x]⟩

@[simp] theorem exchanges_exchange (x : Exchange) : Spoken.exchanges x = [x] := rfl

def talkOf {ι : Type} [Spoken ι] (items : List ι) : List Exchange :=
  items.flatMap Spoken.exchanges

section

variable {ι : Type} [Spoken ι]

@[simp] theorem talkOf_nil : talkOf ([] : List ι) = [] := rfl

@[simp] theorem talkOf_append (xs ys : List ι) : talkOf (xs ++ ys) = talkOf xs ++ talkOf ys :=
  List.flatMap_append

@[simp] theorem talkOf_singleton (x : ι) : talkOf [x] = Spoken.exchanges x := by
  simp [talkOf]

@[simp] theorem talkOf_exchanges (xs : List Exchange) : talkOf xs = xs :=
  List.flatMap_singleton' xs

end

variable {σ : Type} [Endpoint σ]

/-- One world comes out of another by a conversation. Files are not touched. -/
structure World.Follows (w : World σ) (talk : List Exchange) (w' : World σ) : Prop where
  endpoint : Conversation w.endpoint talk w'.endpoint
  requests : w'.requests = w.requests ++ talk.map (·.request)
  files : w'.files = w.files
  directory : w'.directory = w.directory

theorem World.Follows.quiet {w w' : World σ} (he : w'.endpoint = w.endpoint)
    (hr : w'.requests = w.requests) (hf : w'.files = w.files) (hd : w'.directory = w.directory) :
    w.Follows [] w' :=
  ⟨he ▸ .nil _, by simp [hr], hf, hd⟩

theorem World.Follows.refl (w : World σ) : w.Follows [] w := .quiet rfl rfl rfl rfl

theorem World.Follows.trans {w w₁ w₂ : World σ} {xs ys : List Exchange}
    (h : w.Follows xs w₁) (h' : w₁.Follows ys w₂) : w.Follows (xs ++ ys) w₂ where
  endpoint := h.endpoint.append h'.endpoint
  requests := by rw [h'.requests, h.requests, List.map_append, List.append_assoc]
  files := h'.files.trans h.files
  directory := h'.directory.trans h.directory

namespace Run

variable {α β ι : Type} [Spoken ι]

/-- From every world the computation holds a conversation of which, together with the outcome, `Q`
is true. -/
def Speaks (body : Run σ α) (Q : Except Fault α → List ι → Prop) : Prop :=
  ∀ w : World σ, ∃ items : List ι, w.Follows (talkOf items) (body w).2 ∧ Q (body w).1 items

def Silent (body : Run σ α) : Prop := ∀ w : World σ, w.Follows [] (body w).2

theorem Speaks.of_eq {body : Run σ α} {Q : Except Fault α → List ι → Prop} (h : Speaks body Q)
    {w w' : World σ} {r : Except Fault α} (he : body w = (r, w')) :
    ∃ items, w.Follows (talkOf items) w' ∧ Q r items := by
  have hw := h w
  rw [he] at hw
  exact hw

theorem Speaks.weaken {body : Run σ α} {Q R : Except Fault α → List ι → Prop}
    (h : Speaks body Q) (hQ : ∀ r items, Q r items → R r items) : Speaks body R := by
  intro w
  obtain ⟨items, hf, hq⟩ := h w
  exact ⟨items, hf, hQ _ _ hq⟩

theorem Speaks.bind {body : Run σ α} {next : α → Run σ β}
    {Q : Except Fault α → List ι → Prop} {R : Except Fault β → List ι → Prop}
    (h : Speaks body Q)
    (hok : ∀ v items, Q (.ok v) items → Speaks (next v) fun r more => R r (items ++ more))
    (herror : ∀ e items, Q (.error e) items → R (.error e) items) :
    Speaks (body >>= next) R := by
  intro w
  obtain ⟨items, hf, hq⟩ := h w
  rw [bind_apply]
  rcases hb : body w with ⟨e | v, w₁⟩
  · rw [hb] at hf hq
    exact ⟨items, hf, herror e items hq⟩
  · rw [hb] at hf hq
    obtain ⟨more, hf', hr⟩ := hok v items hq w₁
    exact ⟨items ++ more, by simpa using hf.trans hf', hr⟩

theorem Speaks.tryCatch {body : Run σ α} {handler : Fault → Run σ α}
    {Q R : Except Fault α → List ι → Prop} (h : Speaks body Q)
    (hok : ∀ v items, Q (.ok v) items → R (.ok v) items)
    (herror : ∀ e items, Q (.error e) items →
      Speaks (handler e) fun r more => R r (items ++ more)) :
    Speaks (tryCatch body handler) R := by
  intro w
  obtain ⟨items, hf, hq⟩ := h w
  rw [tryCatch_apply]
  rcases hb : body w with ⟨e | v, w₁⟩
  · rw [hb] at hf hq
    obtain ⟨more, hf', hr⟩ := herror e items hq w₁
    exact ⟨items ++ more, by simpa using hf.trans hf', hr⟩
  · rw [hb] at hf hq
    exact ⟨items, hf, hok v items hq⟩

theorem Silent.bind {body : Run σ α} {next : α → Run σ β} (h : Silent body)
    (hnext : ∀ v, Silent (next v)) : Silent (body >>= next) :=
  related_bind (fun h h' => h.trans h') h hnext

theorem silent_pure (v : α) : Silent (pure v : Run σ α) := fun w => .refl w

theorem silent_throw (e : Fault) : Silent (throw e : Run σ α) := fun w => .refl w

theorem silent_ofExcept (r : Except Fault α) : Silent (ofExcept r : Run σ α) := by
  intro w
  rw [ofExcept_apply]
  exact .refl w

/-- A check that may end the computation is no word to the endpoint. -/
theorem silent_guard {p : Prop} [Decidable p] {e : Fault} {body : Run σ α} (h : Silent body) :
    Silent (if p then (throw e : Run σ PUnit) >>= fun _ => body else body) := by
  split
  · exact (silent_throw e).bind fun _ => h
  · exact h

theorem silent_get : Silent (get : Run σ (World σ)) := fun w => .refl w

theorem Silent.then {body : Run σ α} {next : α → Run σ β} {R : Except Fault β → List ι → Prop}
    (h : Silent body) (hok : ∀ v, Speaks (next v) R) (herror : ∀ e, R (.error e) []) :
    Speaks (body >>= next) R := by
  intro w
  have hw := h w
  rw [bind_apply]
  rcases hb : body w with ⟨e | v, w₁⟩
  · rw [hb] at hw
    exact ⟨[], hw, herror e⟩
  · rw [hb] at hw
    obtain ⟨more, hf, hr⟩ := hok v w₁
    exact ⟨more, by simpa using hw.trans hf, hr⟩

theorem speaks_pure {v : α} {R : Except Fault α → List ι → Prop} (h : R (.ok v) []) :
    Speaks (pure v : Run σ α) R := fun w => ⟨[], .refl w, h⟩

theorem speaks_throw {e : Fault} {R : Except Fault α → List ι → Prop} (h : R (.error e) []) :
    Speaks (throw e : Run σ α) R := fun w => ⟨[], .refl w, h⟩

theorem speaks_guard {p : Prop} [Decidable p] {e : Fault} {body : Run σ α}
    {R : Except Fault α → List ι → Prop} (he : R (.error e) []) (h : Speaks body R) :
    Speaks (if p then (throw e : Run σ PUnit) >>= fun _ => body else body) R := by
  split
  · exact fun w => ⟨[], .refl w, he⟩
  · exact h

/-- Two ways to begin go on in the same way. -/
theorem Speaks.branch {p : Prop} [Decidable p] {first other : Run σ α} {next : α → Run σ β}
    {Q : Except Fault α → List ι → Prop} {R : Except Fault β → List ι → Prop}
    (h : Speaks first Q) (h' : Speaks other Q)
    (hok : ∀ v items, Q (.ok v) items → Speaks (next v) fun r more => R r (items ++ more))
    (herror : ∀ e items, Q (.error e) items → R (.error e) items) :
    Speaks (if p then first >>= next else other >>= next) R := by
  split
  · exact h.bind hok herror
  · exact h'.bind hok herror

theorem speaks_ofExcept {r : Except Fault α} {R : Except Fault α → List ι → Prop} (h : R r []) :
    Speaks (ofExcept r : Run σ α) R := by
  intro w
  rw [ofExcept_apply]
  exact ⟨[], .refl w, h⟩

theorem speaks_of_value {r : Except Fault α} {next : α → Run σ β} {R : Except Fault β → List ι → Prop}
    (herror : ∀ e, R (.error e) []) (h : ∀ v, r = .ok v → Speaks (next v) R) :
    Speaks (ofExcept r >>= next) R := by
  cases r with
  | error e => exact speaks_throw (herror e)
  | ok v => exact h v rfl

end Run

end ServerDeploy
