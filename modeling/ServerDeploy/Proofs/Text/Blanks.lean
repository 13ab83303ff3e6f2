import ServerDeploy.Text.Blank

/-! Runs of white space. They are skipped as a whole, and a text that has none at its ends is not
changed by trimming. -/

namespace ServerDeploy

def AllBlank (ws : List Char) : Prop := ∀ c ∈ ws, isBlank c = true

theorem allBlank_nil : AllBlank [] := by simp [AllBlank]

theorem allBlank_space : AllBlank [' '] := by
  intro c hc
  rw [List.mem_singleton.1 hc]
  decide

theorem skipBlanks_append {ws : List Char} (h : AllBlank ws) (cs : List Char) :
    skipBlanks (ws ++ cs) = skipBlanks cs := List.dropWhile_append_of_pos h

theorem skipBlanks_of_head {cs : List Char} (h : ∀ c ∈ cs.head?, isBlank c = false) :
    skipBlanks cs = cs := by
  cases cs with
  | nil => rfl
  | cons c cs => exact skipBlanks_cons_of_not_blank (h c rfl)

theorem skipBlanks_skipBlanks (cs : List Char) : skipBlanks (skipBlanks cs) = skipBlanks cs := by
  apply skipBlanks_of_head
  intro c hc
  obtain ⟨rest, hrest⟩ := List.head?_eq_some_iff.1 hc
  exact isBlank_of_skipBlanks_eq_cons hrest

theorem trimBlanks_of_ends {cs : List Char} (hhead : ∀ c ∈ cs.head?, isBlank c = false)
    (hlast : ∀ c ∈ cs.getLast?, isBlank c = false) : trimBlanks cs = cs := by
  have hreverse : skipBlanks cs.reverse = cs.reverse :=
    skipBlanks_of_head (by simpa using hlast)
  unfold trimBlanks
  rw [skipBlanks_of_head hhead, hreverse, List.reverse_reverse]

theorem allBlank_takeWhile (cs : List Char) : AllBlank (cs.takeWhile isBlank) :=
  List.all_eq_true.1 List.all_takeWhile

theorem takeWhile_append_skipBlanks (cs : List Char) : cs.takeWhile isBlank ++ skipBlanks cs = cs :=
  List.takeWhile_append_dropWhile

/-- Trimming takes white space from both ends and nothing else. -/
theorem trimBlanks_padded (cs : List Char) : ∃ before after, AllBlank before ∧ AllBlank after ∧
    cs = before ++ (trimBlanks cs ++ after) := by
  refine ⟨cs.takeWhile isBlank, ((skipBlanks cs).reverse.takeWhile isBlank).reverse,
    allBlank_takeWhile cs, ?_, ?_⟩
  · intro c hc
    exact allBlank_takeWhile _ c (List.mem_reverse.1 hc)
  · have hend : trimBlanks cs ++ ((skipBlanks cs).reverse.takeWhile isBlank).reverse = skipBlanks cs := by
      unfold trimBlanks
      rw [← List.reverse_append]
      exact List.reverse_eq_iff.2 (takeWhile_append_skipBlanks _)
    rw [hend]
    exact (takeWhile_append_skipBlanks cs).symm

theorem trimBlanks_eq_nil_iff {cs : List Char} : trimBlanks cs = [] ↔ AllBlank cs := by
  constructor
  · intro h
    obtain ⟨before, after, hbefore, hafter, heq⟩ := trimBlanks_padded cs
    rw [heq, h]
    intro c hc
    rcases List.mem_append.1 hc with hc | hc
    · exact hbefore c hc
    · exact hafter c hc
  · intro h
    have hskip := skipBlanks_append h []
    rw [List.append_nil] at hskip
    rw [trimBlanks, hskip]
    rfl

/-- A text without white space at its ends. Texts of this kind may be put together. -/
def Firm (cs : List Char) : Prop :=
  (∀ c ∈ cs.head?, isBlank c = false) ∧ ∀ c ∈ cs.getLast?, isBlank c = false

theorem Firm.trim {cs : List Char} (h : Firm cs) : trimBlanks cs = cs := trimBlanks_of_ends h.1 h.2

theorem firm_nil : Firm [] := by simp [Firm]

theorem firm_of_all {cs : List Char} (h : ∀ c ∈ cs, isBlank c = false) : Firm cs :=
  ⟨fun c hc => h c (List.mem_of_mem_head? hc), fun c hc => h c (List.mem_of_getLast? hc)⟩

theorem firm_char {c : Char} (h : isBlank c = false) : Firm [c] := firm_of_all (by simpa using h)

theorem Firm.append {xs ys : List Char} (hx : Firm xs) (hy : Firm ys) : Firm (xs ++ ys) := by
  constructor
  · intro c hc
    rw [List.head?_append] at hc
    cases hhead : xs.head? with
    | none => exact hy.1 c (by simpa [hhead] using hc)
    | some d => exact hx.1 c (by simpa [hhead] using hc)
  · intro c hc
    rw [List.getLast?_append] at hc
    cases hlast : ys.getLast? with
    | none => exact hx.2 c (by simpa [hlast] using hc)
    | some d => exact hy.2 c (by simpa [hlast] using hc)

theorem firm_enclosed {left right : Char} (hleft : isBlank left = false)
    (hright : isBlank right = false) (cs : List Char) : Firm (left :: (cs ++ [right])) := by
  constructor
  · simpa using hleft
  · rw [← List.cons_append, List.getLast?_append]
    simpa using hright

end ServerDeploy
