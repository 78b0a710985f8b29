import Mathlib.Data.List.TakeWhile

/-!
# Words between blanks

The words of a list are the longest runs without a blank.  To put one blank between them, a scanner
has to keep only whether there was a blank since the last word.
-/

namespace Linux012.Lib

variable {α : Type} {blank : α → Bool} {space : α} {c : α} {l : List α} {ws : List (List α)}

/-- What words are made of. -/
def solid (blank : α → Bool) (c : α) : Bool := !blank c

/-- The words of a list. -/
def words (blank : α → Bool) : List α → List (List α)
  | [] => []
  | c :: l =>
      if blank c then words blank l
      else (c :: l.takeWhile (solid blank)) :: words blank (l.dropWhile (solid blank))
termination_by l => l.length
decreasing_by
  · exact Nat.lt_succ_self _
  · exact Nat.lt_succ_of_le (List.length_dropWhile_le _ _)

/-- The words with one blank in front of each. -/
def spaced (space : α) (ws : List (List α)) : List α := ws.flatMap (space :: ·)

/-- A scanner that knows whether it has seen a blank since the last word. -/
def squeeze (blank : α → Bool) (space : α) : Bool → List α → List α
  | _, [] => []
  | seen, c :: l =>
      if blank c then squeeze blank space true l
      else if seen then space :: c :: squeeze blank space false l
      else c :: squeeze blank space false l

/-! ## The scanner puts one blank between the words -/

theorem words_nil : words blank [] = [] := by rw [words]

theorem words_cons_blank (isBlank : blank c = true) : words blank (c :: l) = words blank l := by
  rw [words, if_pos isBlank]

theorem words_cons (notBlank : blank c = false) :
    words blank (c :: l) =
      (c :: l.takeWhile (solid blank)) :: words blank (l.dropWhile (solid blank)) := by
  rw [words, notBlank, if_neg Bool.false_ne_true]

theorem spaced_cons {w : List α} : spaced space (w :: ws) = space :: (w ++ spaced space ws) := by
  rw [spaced, List.flatMap_cons, List.cons_append]
  rfl

theorem intercalate_cons {w : List α} : [space].intercalate (w :: ws) = w ++ spaced space ws := by
  induction ws generalizing w with
  | nil => rw [List.intercalate_singleton, spaced, List.flatMap_nil, List.append_nil]
  | cons v ws ih =>
      rw [List.intercalate_cons_cons, ih, spaced_cons, List.append_assoc]
      rfl

/-- In front of a word, and inside of one. -/
theorem squeeze_eq :
    squeeze blank space true l = spaced space (words blank l) ∧
      squeeze blank space false l =
        l.takeWhile (solid blank) ++ spaced space (words blank (l.dropWhile (solid blank))) := by
  induction l with
  | nil =>
      rw [List.dropWhile_nil, List.takeWhile_nil, words_nil]
      exact ⟨rfl, rfl⟩
  | cons c l ih =>
      cases isBlank : blank c with
      | true =>
          have stops : ¬solid blank c = true := by simp [solid, isBlank]
          rw [squeeze, squeeze, if_pos isBlank, if_pos isBlank, List.takeWhile_cons_of_neg stops,
            List.dropWhile_cons_of_neg stops, words_cons_blank isBlank]
          exact ⟨ih.1, ih.1⟩
      | false =>
          have goes : solid blank c = true := by simp [solid, isBlank]
          have notBlank : ¬blank c = true := by simp [isBlank]
          rw [squeeze, squeeze, if_neg notBlank, if_neg notBlank, words_cons isBlank,
            List.takeWhile_cons_of_pos goes, List.dropWhile_cons_of_pos goes, ih.2, if_pos rfl,
            if_neg Bool.false_ne_true, spaced_cons]
          exact ⟨rfl, rfl⟩

/-- Behind the first character of the first word. -/
theorem squeeze_false (notBlank : blank c = false) :
    c :: squeeze blank space false l = [space].intercalate (words blank (c :: l)) := by
  rw [words_cons notBlank, intercalate_cons, squeeze_eq.2]
  rfl

theorem words_of_blanks (blanks : ∀ c ∈ l, blank c = true) : words blank l = [] := by
  induction l with
  | nil => exact words_nil
  | cons c l ih =>
      rw [words_cons_blank (blanks c List.mem_cons_self)]
      exact ih fun d member => blanks d (List.mem_cons_of_mem _ member)

/-- One blank is put in front of a word only behind another one. -/
theorem squeeze_length_le {seen : Bool} :
    (squeeze blank space seen l).length ≤ l.length + seen.toNat := by
  induction l generalizing seen with
  | nil => exact Nat.zero_le _
  | cons c l ih =>
      rw [squeeze, List.length_cons]
      split
      · exact (@ih true).trans (Nat.le_add_right _ _)
      · have rest := @ih false
        rw [Bool.toNat_false, Nat.add_zero] at rest
        cases seen with
        | true => exact Nat.succ_le_succ (Nat.succ_le_succ rest)
        | false => exact Nat.succ_le_succ rest

theorem intercalate_words_length_le :
    ([space].intercalate (words blank l)).length ≤ l.length := by
  induction l with
  | nil =>
      rw [words_nil]
      exact le_refl 0
  | cons c l ih =>
      cases isBlank : blank c with
      | true =>
          rw [words_cons_blank isBlank]
          exact ih.trans (Nat.le_succ _)
      | false =>
          have rest := @squeeze_length_le _ blank space l false
          rw [← squeeze_false isBlank]
          exact Nat.succ_le_succ rest

theorem mem_squeeze {seen : Bool} {x : α} (member : x ∈ squeeze blank space seen l) :
    x = space ∨ x ∈ l := by
  induction l generalizing seen with
  | nil => cases member
  | cons c l ih =>
      rw [squeeze] at member
      have later (member : x ∈ c :: squeeze blank space false l) : x = space ∨ x ∈ c :: l := by
        rcases List.mem_cons.mp member with rfl | member
        · exact Or.inr List.mem_cons_self
        · exact (ih member).imp_right (List.mem_cons_of_mem _)
      split at member
      · exact (ih member).imp_right (List.mem_cons_of_mem _)
      · cases seen with
        | true => exact (List.mem_cons.mp member).elim Or.inl later
        | false => exact later member

theorem mem_intercalate_words {x : α} (member : x ∈ [space].intercalate (words blank l)) :
    x = space ∨ x ∈ l := by
  induction l with
  | nil =>
      rw [words_nil] at member
      cases member
  | cons c l ih =>
      cases isBlank : blank c with
      | true =>
          rw [words_cons_blank isBlank] at member
          exact (ih member).imp_right (List.mem_cons_of_mem _)
      | false =>
          rw [← squeeze_false isBlank] at member
          rcases List.mem_cons.mp member with rfl | member
          · exact Or.inr List.mem_cons_self
          · exact (mem_squeeze member).imp_right (List.mem_cons_of_mem _)

/-! ## What is joined has the words that were joined -/

/-- A word. -/
def IsWord (blank : α → Bool) (w : List α) : Prop := w ≠ [] ∧ ∀ c ∈ w, blank c = false

theorem isWord_of_mem_words {w : List α} (member : w ∈ words blank l) : IsWord blank w := by
  fun_induction words blank l with
  | case1 => cases member
  | case2 c l isBlank ih => exact ih member
  | case3 c l notBlank ih =>
      rcases List.mem_cons.mp member with rfl | member
      · refine ⟨List.cons_ne_nil _ _, fun d found => ?_⟩
        rcases List.mem_cons.mp found with rfl | found
        · exact Bool.eq_false_iff.mpr notBlank
        · have isSolid := List.mem_takeWhile_imp found
          simpa [solid] using isSolid
      · exact ih member

/-- A word in front of nothing or of a blank is the first one. -/
theorem words_append {w rest : List α} (isWord : IsWord blank w)
    (ends : ∀ c ∈ rest.head?, blank c = true) :
    words blank (w ++ rest) = w :: words blank rest := by
  obtain ⟨notEmpty, solids⟩ := isWord
  cases w with
  | nil => exact absurd rfl notEmpty
  | cons c w =>
      have all : ∀ d ∈ w, solid blank d = true := fun d member => by
        simp [solid, solids d (List.mem_cons_of_mem _ member)]
      have stops : rest.takeWhile (solid blank) = [] ∧ rest.dropWhile (solid blank) = rest := by
        cases rest with
        | nil => exact ⟨rfl, rfl⟩
        | cons d rest =>
            have isBlank : ¬solid blank d = true := by simp [solid, ends d rfl]
            exact ⟨List.takeWhile_cons_of_neg isBlank, List.dropWhile_cons_of_neg isBlank⟩
      rw [List.cons_append, words_cons (solids c List.mem_cons_self),
        List.takeWhile_append_of_pos all, List.dropWhile_append_of_pos all, stops.1, stops.2,
        List.append_nil]

theorem words_spaced (isSpace : blank space = true) (areWords : ∀ w ∈ ws, IsWord blank w) :
    words blank (spaced space ws) = ws := by
  induction ws with
  | nil => exact words_nil
  | cons w ws ih =>
      have ends : ∀ c ∈ (spaced space ws).head?, blank c = true := by
        cases ws with
        | nil => simp [spaced]
        | cons v ws =>
            rintro c ⟨rfl⟩
            exact isSpace
      rw [spaced_cons, words_cons_blank isSpace, words_append (areWords w List.mem_cons_self) ends]
      exact congrArg _ (ih fun v member => areWords v (List.mem_cons_of_mem _ member))

/-- Joining again changes nothing. -/
theorem words_intercalate (isSpace : blank space = true) (areWords : ∀ w ∈ ws, IsWord blank w) :
    words blank ([space].intercalate ws) = ws := by
  cases ws with
  | nil => exact words_nil
  | cons w ws =>
      have rest := words_spaced isSpace areWords
      rw [intercalate_cons]
      rwa [spaced_cons, words_cons_blank isSpace] at rest

end Linux012.Lib
