import Mathlib.Logic.Basic
import ServerDeploy.Proofs.Command.Nesting

/-! Where a text is cut. A scan follows the quotes and brackets of the text, and a cut is made at each
separator that it meets outside of them. So the parts are determined by the text: they are the texts
between these separators. -/

namespace ServerDeploy

namespace Command

namespace Nesting

/-- The nesting behind a text. As in a scan, a backslash inside quotes takes the next character with
it. -/
def after : Nesting → List Char → Nesting
  | n, [] => n
  | n, [c] => n.step c
  | n, c :: d :: rest =>
    if c = '\\' ∧ n.quoted then after n rest else after (n.step c) (d :: rest)

theorem isOutside_iff {n : Nesting} : n.isOutside = true ↔ n = .outside := by
  obtain ⟨depth, quoted⟩ := n
  simp [isOutside, outside]

theorem step_of_not_delimiter {c : Char} (h : isDelimiter c = false) (n : Nesting) : n.step c = n := by
  obtain ⟨⟨hquote, hopening⟩, hclosing⟩ : (c ≠ '"' ∧ isOpening c = false) ∧ isClosing c = false := by
    simpa [isDelimiter] using h
  simp [step, hquote, hopening, hclosing]

theorem step_quoted {n : Nesting} (h : n.quoted = true) {c : Char} (hquote : c ≠ '"') :
    n.step c = n := by
  simp [step, h, hquote]

theorem after_escaped {n : Nesting} (h : n.quoted = true) (d : Char) (cs : List Char) :
    n.after ('\\' :: d :: cs) = n.after cs := by
  rw [after, if_pos ⟨rfl, h⟩]

theorem after_cons {n : Nesting} {c : Char} (h : ¬(c = '\\' ∧ n.quoted = true)) (cs : List Char) :
    n.after (c :: cs) = (n.step c).after cs := by
  cases cs with
  | nil => rfl
  | cons d cs => rw [after, if_neg h]

theorem after_cons_unquoted {n : Nesting} (h : n.quoted = false) (c : Char) (cs : List Char) :
    n.after (c :: cs) = (n.step c).after cs := after_cons (by simp [h]) cs

/-- The order in which a scan goes through a text: an escape inside quotes is passed in one go. -/
@[elab_as_elim]
theorem after_induction {motive : Nesting → List Char → Prop} (nil : ∀ n, motive n [])
    (last : ∀ n c, motive n [c])
    (escaped : ∀ n d rest, n.quoted = true → motive n rest → motive n ('\\' :: d :: rest))
    (step : ∀ n c d rest, ¬(c = '\\' ∧ n.quoted = true) → motive (n.step c) (d :: rest) →
      motive n (c :: d :: rest)) (n : Nesting) (cs : List Char) : motive n cs := by
  induction n, cs using after.induct with
  | case1 n => exact nil n
  | case2 n c => exact last n c
  | case3 n c d rest hescape ih =>
    obtain ⟨rfl, hquoted⟩ := hescape
    exact escaped n d rest hquoted ih
  | case4 n c d rest hescape ih => exact step n c d rest hescape ih

/-- A text that ends outside quotes does not end inside an escape, so the scan can go on from there. -/
theorem after_append {n : Nesting} {xs : List Char} (h : (n.after xs).quoted = false)
    (ys : List Char) : n.after (xs ++ ys) = (n.after xs).after ys := by
  induction n, xs using after_induction with
  | nil => rfl
  | last n c =>
    refine after_cons ?_ ys
    rintro ⟨rfl, hquoted⟩
    have hkept : n.after ['\\'] = n := step_quoted hquoted (by decide)
    rw [hkept, hquoted] at h
    cases h
  | escaped n d rest hquoted ih =>
    rw [after_escaped hquoted] at h ⊢
    exact (after_escaped hquoted d (rest ++ ys)).trans (ih h)
  | step n c d rest hescape ih =>
    rw [after_cons hescape] at h ⊢
    exact (after_cons hescape (d :: rest ++ ys)).trans (ih h)

/-- The nesting `k` brackets further in. -/
def deeper (k : Int) (n : Nesting) : Nesting := ⟨n.depth + k, n.quoted⟩

theorem step_deeper (k : Int) (n : Nesting) (c : Char) : (n.deeper k).step c = (n.step c).deeper k := by
  by_cases hquote : c = '"'
  · simp [step, deeper, hquote]
  by_cases hquoted : n.quoted = true
  · simp [step, deeper, hquote, hquoted]
  by_cases hopening : isOpening c = true
  · simp [step, deeper, hquote, hquoted, hopening, Int.add_right_comm]
  by_cases hclosing : isClosing c = true
  · simp [step, deeper, hquote, hquoted, hopening, hclosing, Int.sub_eq_add_neg, Int.add_right_comm]
  · simp [step, deeper, hquote, hquoted, hopening, hclosing]

/-- How deep a scan starts only moves the depths along the way. -/
theorem after_deeper (k : Int) (n : Nesting) (cs : List Char) :
    (n.deeper k).after cs = (n.after cs).deeper k := by
  induction n, cs using after_induction with
  | nil => rfl
  | last n c => exact step_deeper k n c
  | escaped n d rest hquoted ih =>
    have hdeeper : (n.deeper k).quoted = true := hquoted
    rw [after_escaped hdeeper, after_escaped hquoted, ih]
  | step n c d rest hescape ih =>
    have hdeeper : ¬(c = '\\' ∧ (n.deeper k).quoted = true) := hescape
    rw [after_cons hdeeper, after_cons hescape, step_deeper, ih]

theorem after_blanks {ws : List Char} (h : AllBlank ws) {n : Nesting} (hn : n.quoted = false) :
    n.after ws = n := by
  induction ws with
  | nil => rfl
  | cons c ws ih =>
    have hc : isDelimiter c = false := by
      apply Bool.eq_false_iff.2
      intro hdelimiter
      have hblank := (not_token_of_isDelimiter hdelimiter).2.2
      rw [h c (by simp)] at hblank
      cases hblank
    rw [after_cons_unquoted hn, step_of_not_delimiter hc, ih fun d hd => h d (by simp [hd])]

end Nesting

open Nesting

theorem scan_snd (sep : Char) (n : Nesting) (cs : List Char) : (scan sep n cs).2 = n.after cs := by
  induction n, cs using after_induction with
  | nil => rfl
  | last n c =>
    simp only [scan]
    split <;> rfl
  | escaped n d rest hquoted ih =>
    rw [after_escaped hquoted]
    simp only [scan, hquoted, and_self, if_true]
    exact ih
  | step n c d rest hescape ih =>
    rw [after_cons hescape]
    simp only [scan, hescape, if_false]
    split <;> exact ih

theorem scan_step {sep : Char} {n : Nesting} {c : Char} (hescape : ¬(c = '\\' ∧ n.quoted = true))
    (hkeep : ¬(c = sep ∧ (n.step c).isOutside = true)) (cs : List Char) :
    scan sep n (c :: cs) = inFirst [c] (scan sep (n.step c) cs) := by
  cases cs with
  | nil =>
    simp only [scan, hkeep, if_false]
    rfl
  | cons d rest =>
    simp only [scan, hescape, hkeep, if_false]
    rfl

/-- No separator in the text is one to cut at. -/
def Keeps (sep : Char) (n : Nesting) (cs : List Char) : Prop :=
  ∀ before rest, cs = before ++ sep :: rest → n.after before ≠ .outside

section Keeps

variable {sep : Char} (hsep : isDelimiter sep = false)
include hsep

theorem Keeps.head {n : Nesting} {c : Char} {cs : List Char} (h : Keeps sep n (c :: cs)) :
    ¬(c = sep ∧ (n.step c).isOutside = true) := by
  rintro ⟨rfl, hout⟩
  rw [step_of_not_delimiter hsep, isOutside_iff] at hout
  exact h [] cs rfl hout

theorem scan_append {n : Nesting} {xs : List Char} (h : Keeps sep n xs)
    (hend : (n.after xs).quoted = false) (ys : List Char) :
    scan sep n (xs ++ ys) = inFirst xs (scan sep (n.after xs) ys) := by
  induction n, xs using after_induction with
  | nil => rfl
  | last n c =>
    refine scan_step ?_ (h.head hsep) ys
    rintro ⟨rfl, hquoted⟩
    have hkept : n.after ['\\'] = n := step_quoted hquoted (by decide)
    rw [hkept, hquoted] at hend
    cases hend
  | escaped n d rest hquoted ih =>
    rw [after_escaped hquoted] at hend ⊢
    have hrest : Keeps sep n rest := by
      rintro before more rfl
      rw [← after_escaped hquoted d]
      exact h ('\\' :: d :: before) more rfl
    have hpair : scan sep n ('\\' :: d :: (rest ++ ys)) =
        inFirst ['\\', d] (scan sep n (rest ++ ys)) := by
      simp only [scan, hquoted, and_self, if_true]
      rfl
    rw [List.cons_append, List.cons_append, hpair, ih hrest hend, ← inFirst_append]
    rfl
  | step n c d rest hescape ih =>
    rw [after_cons hescape] at hend ⊢
    have hrest : Keeps sep (n.step c) (d :: rest) := by
      intro before more heq
      rw [← after_cons hescape]
      exact h (c :: before) more (congrArg (c :: ·) heq)
    rw [List.cons_append, scan_step hescape (h.head hsep), ih hrest hend, ← inFirst_append]
    rfl

end Keeps

/-- A text as one part: every quote and bracket in it is closed, and it is not cut. -/
structure Whole (sep : Char) (cs : List Char) : Prop where
  closed : Nesting.outside.after cs = .outside
  keeps : Keeps sep .outside cs

theorem whole_of_not_mem {sep : Char} {cs : List Char} (hclosed : Nesting.outside.after cs = .outside)
    (h : sep ∉ cs) : Whole sep cs where
  closed := hclosed
  keeps := by
    rintro before rest rfl
    exact absurd (by simp) h

theorem scan_whole {sep : Char} (hsep : isDelimiter sep = false) {part : List Char}
    (h : Whole sep part) (rest : List Char) :
    scan sep .outside (part ++ rest) = inFirst part (scan sep .outside rest) := by
  have happend := scan_append hsep h.keeps (by rw [h.closed]; rfl) rest
  rwa [h.closed] at happend

theorem scan_separator {sep : Char} (hsep : isDelimiter sep = false) (rest : List Char) :
    scan sep .outside (sep :: rest) =
      ([] :: (scan sep .outside rest).1, (scan sep .outside rest).2) := by
  rw [scan_cons sep rfl, step_of_not_delimiter hsep, if_pos ⟨rfl, rfl⟩]

theorem after_whole {sep : Char} (hsep : isDelimiter sep = false) {part : List Char}
    (h : Whole sep part) (rest : List Char) :
    Nesting.outside.after (part ++ sep :: rest) = Nesting.outside.after rest := by
  rw [after_append (by rw [h.closed]; rfl), h.closed, after_cons_unquoted rfl,
    step_of_not_delimiter hsep]

/-- A text is kept, or it is cut a first time. -/
theorem keeps_or_cut (sep : Char) (cs : List Char) : Keeps sep .outside cs ∨
    ∃ first rest, cs = first ++ sep :: rest ∧ Whole sep first := by
  by_cases h : Keeps sep .outside cs
  · exact .inl h
  obtain ⟨k, hk⟩ : ∃ k first rest, first.length = k ∧ cs = first ++ sep :: rest ∧
      Nesting.outside.after first = .outside := by
    simp only [Keeps, not_forall, not_not] at h
    obtain ⟨first, rest, heq, hclosed⟩ := h
    exact ⟨first.length, first, rest, rfl, heq, hclosed⟩
  -- of all places to cut at, the first is taken
  induction k using Nat.strongRecOn with
  | ind k ih =>
    obtain ⟨first, rest, rfl, heq, hclosed⟩ := hk
    by_cases hfirst : Keeps sep .outside first
    · exact .inr ⟨first, rest, heq, hclosed, hfirst⟩
    · simp only [Keeps, not_forall, not_not] at hfirst
      obtain ⟨before, more, rfl, hbefore⟩ := hfirst
      have hshort : before.length < (before ++ sep :: more).length := by simp
      exact ih _ hshort ⟨before, more ++ sep :: rest, rfl, by simpa using heq, hbefore⟩

section Split

variable {sep : Char} (hsep : isDelimiter sep = false)
include hsep

theorem scan_closed {cs : List Char} (hclosed : Nesting.outside.after cs = .outside) :
    (scan sep .outside cs).1 ≠ [] ∧ joinWith sep (scan sep .outside cs).1 = cs ∧
      ∀ part ∈ (scan sep .outside cs).1, Whole sep part := by
  induction hlength : cs.length using Nat.strongRecOn generalizing cs with
  | ind k ih =>
    rcases keeps_or_cut sep cs with hkeeps | ⟨first, rest, rfl, hfirst⟩
    · have hscan := scan_whole hsep ⟨hclosed, hkeeps⟩ []
      rw [List.append_nil] at hscan
      rw [hscan]
      simp [scan, inFirst_cons, joinWith, Whole.mk hclosed hkeeps]
    · rw [after_whole hsep hfirst] at hclosed
      have hshort : rest.length < k := by
        rw [← hlength, List.length_append, List.length_cons]
        omega
      obtain ⟨hne, hjoin, hparts⟩ := ih _ hshort hclosed rfl
      rw [scan_whole hsep hfirst, scan_separator hsep, inFirst_cons, List.append_nil]
      refine ⟨List.cons_ne_nil _ _, ?_, ?_⟩
      · obtain ⟨next, others, hcons⟩ := List.exists_cons_of_ne_nil hne
        rw [hcons] at hjoin ⊢
        rw [← hjoin]
        rfl
      · intro part hpart
        rcases List.mem_cons.1 hpart with rfl | hpart
        · exact hfirst
        · exact hparts part hpart

theorem scan_wholes {parts : List (List Char)} (hne : parts ≠ [])
    (h : ∀ part ∈ parts, Whole sep part) :
    scan sep .outside (joinWith sep parts) = (parts, .outside) := by
  induction parts with
  | nil => exact absurd rfl hne
  | cons part parts ih =>
    have hpart := h part (by simp)
    cases parts with
    | nil =>
      have hscan := scan_whole hsep hpart []
      rw [List.append_nil] at hscan
      rw [joinWith, hscan]
      simp [scan, inFirst_cons]
    | cons next parts =>
      have hrest := ih (by simp) fun p hp => h p (by simp [hp])
      have hjoin : joinWith sep (part :: next :: parts) =
          part ++ sep :: joinWith sep (next :: parts) := rfl
      rw [hjoin, scan_whole hsep hpart, scan_separator hsep, hrest, inFirst_cons, List.append_nil]

theorem split_eq_ok_iff {cs : List Char} {parts : List (List Char)} : split sep cs = .ok parts ↔
    parts ≠ [] ∧ joinWith sep parts = cs ∧ ∀ part ∈ parts, Whole sep part := by
  unfold split splitOutside?
  constructor
  · intro h
    dsimp only at h
    split at h
    · next parts' hparts =>
      split at hparts
      · next hout =>
        cases hparts
        cases h
        rw [scan_snd, isOutside_iff] at hout
        exact scan_closed hsep hout
      · cases hparts
    · cases h
  · rintro ⟨hne, rfl, hparts⟩
    rw [scan_wholes hsep hne hparts]
    rfl

/-- A part is not cut again. -/
theorem Whole.split_self {part : List Char} (h : Whole sep part) : split sep part = .ok [part] := by
  refine (split_eq_ok_iff hsep).2 ⟨List.cons_ne_nil _ _, rfl, ?_⟩
  simpa using h

/-- A closed text can be split. -/
theorem split_closed {cs : List Char} (h : Nesting.outside.after cs = .outside) :
    ∃ parts, split sep cs = .ok parts :=
  ⟨_, (split_eq_ok_iff hsep).2 (scan_closed hsep h)⟩

end Split

/-- What a split gives back. The parts, joined, are the text, and behind the first of them and one
separator stand the others. Each part is kept when it is split again: wherever a separator occurs in
it, the scan stands inside quotes, inside brackets or behind brackets that close nothing. -/
theorem split_rejoined {sep : Char} (hsep : isDelimiter sep = false) {cs : List Char}
    {parts : List (List Char)} (h : split sep cs = .ok parts) :
    joinWith sep parts = cs ∧
      (∀ part ∈ parts, split sep part = .ok [part] ∧
        ∀ before rest, part = before ++ sep :: rest →
          (scan sep .outside before).2.quoted = true ∨ (scan sep .outside before).2.depth ≠ 0) ∧
      ∀ first next rest, parts = first :: next :: rest →
        cs.drop (first.length + 1) = joinWith sep (next :: rest) := by
  obtain ⟨-, rfl, hwhole⟩ := (split_eq_ok_iff hsep).1 h
  refine ⟨rfl, ?_, ?_⟩
  · intro part hpart
    refine ⟨(hwhole part hpart).split_self hsep, ?_⟩
    intro before rest heq
    have hinside := (hwhole part hpart).keeps before rest heq
    rw [scan_snd]
    by_cases hquoted : (Nesting.outside.after before).quoted = true
    · exact .inl hquoted
    · right
      intro hdepth
      apply hinside
      rw [← isOutside_iff]
      simp [isOutside, hquoted, hdepth]
  · rintro first next rest rfl
    have hjoin : joinWith sep (first :: next :: rest) = first ++ sep :: joinWith sep (next :: rest) := rfl
    rw [hjoin, ← List.drop_drop, List.drop_left]
    rfl

/-- A command whose address and parameter hold the separator too, once inside quotes and once inside
brackets. -/
theorem split_rejoined_command :
    joinWith ':' ["/a=\"b:c\"".toList, "go(d=[e:f])".toList] = "/a=\"b:c\":go(d=[e:f])".toList :=
  (split_rejoined (by decide : isDelimiter ':' = false)
    (by rfl : split ':' "/a=\"b:c\":go(d=[e:f])".toList =
      .ok ["/a=\"b:c\"".toList, "go(d=[e:f])".toList])).1

end Command

end ServerDeploy
