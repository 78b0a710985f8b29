import Mathlib.Data.List.DropRight
import Mathlib.Data.List.Basic

/-!
# Editing a line

A queue of lines, of which only the last one can be edited.  Two editors are compared that differ in
some strokes which one of them keeps as characters and the other one drops: they have the same queue
at the end exactly when each line has been emptied behind its last such stroke.
-/

namespace Linux012.Lib

variable {α : Type}

/-- What a character typed does to the queue.  A `doubtful` one is kept by one editor only. -/
inductive Stroke (α : Type) where
  | put (c : α)
  | doubtful (c : α)
  | erase
  | kill
  | ignored
  deriving DecidableEq, Repr

/-- The last character is taken away, unless it ends a line. -/
def eraseChar (ends : α → Bool) (queue : List α) : List α :=
  match queue.getLast? with
  | none => queue
  | some c => if ends c then queue else queue.dropLast

/-- Everything behind the last character that ends a line is taken away. -/
def eraseLine (ends : α → Bool) (queue : List α) : List α := queue.rdropWhile (!ends ·)

/-- The editor that keeps the doubtful strokes, or drops them. -/
def editStroke (ends : α → Bool) (keeps : Bool) (queue : List α) : Stroke α → List α
  | .put c => queue ++ [c]
  | .doubtful c => if keeps then queue ++ [c] else queue
  | .erase => eraseChar ends queue
  | .kill => eraseLine ends queue
  | .ignored => queue

/-- The characters on the line of the editor that keeps the doubtful ones, whether one of them is
there, and whether a line has been ended with one. -/
structure LineState where
  count : Nat
  doubtful : Bool
  ended : Bool
  deriving DecidableEq, Repr

namespace LineState

/-- An empty line. -/
def start : LineState := ⟨0, false, false⟩

def next (ends : α → Bool) (s : LineState) : Stroke α → LineState
  | .put c =>
      if ends c then ⟨0, false, s.ended || s.doubtful⟩ else { s with count := s.count + 1 }
  | .doubtful _ => { s with count := s.count + 1, doubtful := true }
  | .erase => { s with count := s.count - 1, doubtful := s.doubtful && decide (1 < s.count) }
  | .kill => { s with count := 0, doubtful := false }
  | .ignored => s

end LineState

/-- Each line is emptied behind its last doubtful stroke. -/
def Emptied (ends : α → Bool) (strokes : List (Stroke α)) : Prop :=
  (strokes.foldl (LineState.next ends) .start).doubtful = false ∧
    (strokes.foldl (LineState.next ends) .start).ended = false

instance (ends : α → Bool) (strokes : List (Stroke α)) : Decidable (Emptied ends strokes) :=
  inferInstanceAs (Decidable (_ ∧ _))

/-! ## The line of a queue -/

section Lines

variable {ends : α → Bool} {queue before line : List α} {c : α}

/-- The queue has this line behind the lines that are ended. -/
structure HasLine (ends : α → Bool) (queue before line : List α) : Prop where
  eq : queue = before ++ line
  plain : ∀ c ∈ line, ends c = false
  ended : ∀ c ∈ before.getLast?, ends c = true

theorem HasLine.nil : HasLine ends [] [] [] where
  eq := rfl
  plain _ member := by cases member
  ended _ member := by cases member

theorem HasLine.put (has : HasLine ends queue before line) (notEnd : ends c = false) :
    HasLine ends (queue ++ [c]) before (line ++ [c]) where
  eq := by rw [has.eq, List.append_assoc]
  plain d member := by
    rcases List.mem_append.mp member with member | member
    · exact has.plain d member
    · rwa [List.mem_singleton.mp member]
  ended := has.ended

theorem HasLine.putEnd (isEnd : ends c = true) :
    HasLine ends (queue ++ [c]) (queue ++ [c]) [] where
  eq := (List.append_nil _).symm
  plain _ member := by cases member
  ended d last := by
    rw [List.getLast?_concat, Option.mem_some_iff] at last
    rwa [← last]

theorem HasLine.eraseChar (has : HasLine ends queue before line) :
    HasLine ends (eraseChar ends queue) before line.dropLast := by
  obtain ⟨rfl, plain, ended⟩ := has
  cases line using List.reverseRecOn with
  | nil =>
      have kept : Lib.eraseChar ends (before ++ []) = before := by
        rw [List.append_nil, Lib.eraseChar]
        cases last : before.getLast? with
        | none => rfl
        | some c => exact if_pos (ended c last)
      exact ⟨by rw [kept, List.dropLast_nil, List.append_nil], plain, ended⟩
  | append_singleton line c =>
      have notEnd : ¬ends c = true := by
        rw [plain c (List.mem_append_right _ List.mem_cons_self)]
        exact Bool.false_ne_true
      have taken : Lib.eraseChar ends (before ++ (line ++ [c])) = before ++ line := by
        rw [Lib.eraseChar, ← List.append_assoc, List.getLast?_concat]
        dsimp only
        rw [if_neg notEnd, List.dropLast_concat]
      refine ⟨by rw [taken, List.dropLast_concat], fun d member => ?_, ended⟩
      rw [List.dropLast_concat] at member
      exact plain d (List.mem_append_left _ member)

theorem HasLine.eraseLine (has : HasLine ends queue before line) :
    eraseLine ends queue = before := by
  obtain ⟨rfl, plain, ended⟩ := has
  induction line using List.reverseRecOn with
  | nil =>
      rw [List.append_nil, Lib.eraseLine, List.rdropWhile_eq_self_iff]
      intro notEmpty
      rw [ended _ (List.getLast?_eq_some_getLast notEmpty)]
      decide
  | append_singleton line c ih =>
      have isPlain : (!ends c) = true := by
        rw [plain c (List.mem_append_right _ List.mem_cons_self)]
        rfl
      rw [← List.append_assoc, Lib.eraseLine, List.rdropWhile_concat_pos (p := (!ends ·)) _ _ isPlain]
      exact ih fun d member => plain d (List.mem_append_left _ member)

end Lines

/-! ## Two editors -/

section Editors

variable {ends : α → Bool} {before line before' line' keeping dropping : List α} {s : LineState}

/-- How the lines of the two editors go together. -/
structure Together (s : LineState) (before line before' line' : List α) : Prop where
  count : line.length = s.count
  shorter : line'.length ≤ line.length
  lower : before'.length ≤ before.length
  doubtful : s.doubtful = true → line'.length < line.length
  certain : s.doubtful = false → line' = line
  ended : s.ended = true → before'.length < before.length
  same : s.ended = false → before' = before

theorem Together.nil : Together .start ([] : List α) [] [] [] where
  count := rfl
  shorter := le_refl _
  lower := le_refl _
  doubtful h := by cases h
  certain _ := rfl
  ended h := by cases h
  same _ := rfl

/-- The queues are the same when nothing doubtful is left in them. -/
theorem Together.eq_iff (together : Together s before line before' line') :
    before' ++ line' = before ++ line ↔ s.doubtful = false ∧ s.ended = false := by
  constructor
  · intro same
    have lengths := congrArg List.length same
    rw [List.length_append, List.length_append] at lengths
    have shorter := together.shorter
    have lower := together.lower
    constructor
    · by_contra isDoubtful
      have := together.doubtful ((Bool.not_eq_false _).mp isDoubtful)
      omega
    · by_contra isEnded
      have := together.ended ((Bool.not_eq_false _).mp isEnded)
      omega
  · rintro ⟨certain, open_⟩
    rw [together.certain certain, together.same open_]

theorem Together.put (together : Together s before line before' line') (c : α) :
    Together { s with count := s.count + 1 } before (line ++ [c]) before' (line' ++ [c]) where
  count := by rw [List.length_append, together.count]; rfl
  shorter := by
    have := together.shorter
    simp only [List.length_append]
    omega
  lower := together.lower
  doubtful h := by
    have := together.doubtful h
    simp only [List.length_append]
    omega
  certain h := by rw [together.certain h]
  ended := together.ended
  same := together.same

theorem Together.putEnd (together : Together s before line before' line') (c : α) :
    Together ⟨0, false, s.ended || s.doubtful⟩ (before ++ line ++ [c]) [] (before' ++ line' ++ [c])
      [] where
  count := rfl
  shorter := le_refl _
  lower := by
    have shorter := together.shorter
    have lower := together.lower
    simp only [List.length_append]
    omega
  doubtful h := by cases h
  certain _ := rfl
  ended h := by
    have shorter := together.shorter
    have lower := together.lower
    simp only [List.length_append]
    rcases Bool.or_eq_true_iff.mp h with h | h
    · have := together.ended h
      omega
    · have := together.doubtful h
      omega
  same h := by
    obtain ⟨isOpen, certain⟩ := Bool.or_eq_false_iff.mp h
    rw [together.certain certain, together.same isOpen]

theorem Together.keep (together : Together s before line before' line') (c : α) :
    Together { s with count := s.count + 1, doubtful := true } before (line ++ [c]) before' line' where
  count := by rw [List.length_append, together.count]; rfl
  shorter := by
    have := together.shorter
    simp only [List.length_append]
    omega
  lower := together.lower
  doubtful _ := by
    have := together.shorter
    simp only [List.length_append, List.length_singleton]
    omega
  certain h := by cases h
  ended := together.ended
  same := together.same

/-- When the longer line is emptied, the other one is empty too. -/
theorem Together.erase (together : Together s before line before' line') :
    Together { s with count := s.count - 1, doubtful := s.doubtful && decide (1 < s.count) } before
      line.dropLast before' line'.dropLast where
  count := by rw [List.length_dropLast, together.count]
  shorter := by
    have := together.shorter
    simp only [List.length_dropLast]
    omega
  lower := together.lower
  doubtful h := by
    obtain ⟨isDoubtful, more⟩ := (Bool.and_eq_true _ _).mp h
    have less := together.doubtful isDoubtful
    have count := together.count
    have more := of_decide_eq_true more
    simp only [List.length_dropLast]
    omega
  certain h := by
    rcases Bool.and_eq_false_iff.mp h with certain | few
    · rw [together.certain certain]
    · have count := together.count
      have shorter := together.shorter
      have few := of_decide_eq_false few
      have none : line.dropLast.length = 0 := by rw [List.length_dropLast]; omega
      have none' : line'.dropLast.length = 0 := by rw [List.length_dropLast]; omega
      rw [List.length_eq_zero_iff.mp none, List.length_eq_zero_iff.mp none']
  ended := together.ended
  same := together.same

theorem Together.kill (together : Together s before line before' line') :
    Together { s with count := 0, doubtful := false } before [] before' [] where
  count := rfl
  shorter := le_refl _
  lower := together.lower
  doubtful h := by cases h
  certain _ := rfl
  ended := together.ended
  same := together.same

/-- One stroke for both editors. -/
theorem Together.stroke {stroke : Stroke α} (together : Together s before line before' line')
    (has : HasLine ends keeping before line) (has' : HasLine ends dropping before' line')
    (plain : ∀ c, stroke = .doubtful c → ends c = false) :
    ∃ before line before' line',
      HasLine ends (editStroke ends true keeping stroke) before line ∧
      HasLine ends (editStroke ends false dropping stroke) before' line' ∧
      Together (s.next ends stroke) before line before' line' := by
  cases stroke with
  | put c =>
      rw [LineState.next]
      cases isEnd : ends c with
      | true =>
          rw [if_pos rfl]
          refine ⟨_, _, _, _, .putEnd isEnd, .putEnd isEnd, ?_⟩
          rw [has.eq, has'.eq]
          exact together.putEnd c
      | false => exact ⟨_, _, _, _, has.put isEnd, has'.put isEnd, together.put c⟩
  | doubtful c => exact ⟨_, _, _, _, has.put (plain c rfl), has', together.keep c⟩
  | erase => exact ⟨_, _, _, _, has.eraseChar, has'.eraseChar, together.erase⟩
  | kill =>
      refine ⟨before, [], before', [], ⟨?_, ?_, has.ended⟩, ⟨?_, ?_, has'.ended⟩, together.kill⟩
      · rw [List.append_nil]
        exact has.eraseLine
      · exact fun _ member => by cases member
      · rw [List.append_nil]
        exact has'.eraseLine
      · exact fun _ member => by cases member
  | ignored => exact ⟨_, _, _, _, has, has', together⟩

/-- For all strokes: both editors have the same queue at the end if and only if each line has been
emptied behind its last doubtful stroke. -/
theorem editStroke_foldl_iff {strokes : List (Stroke α)}
    (plain : ∀ c, .doubtful c ∈ strokes → ends c = false) :
    strokes.foldl (editStroke ends true) [] = strokes.foldl (editStroke ends false) [] ↔
      Emptied ends strokes := by
  have run : ∃ before line before' line',
      HasLine ends (strokes.foldl (editStroke ends true) []) before line ∧
      HasLine ends (strokes.foldl (editStroke ends false) []) before' line' ∧
      Together (strokes.foldl (LineState.next ends) .start) before line before' line' := by
    induction strokes using List.reverseRecOn with
    | nil => exact ⟨[], [], [], [], .nil, .nil, .nil⟩
    | append_singleton strokes stroke ih =>
        obtain ⟨before, line, before', line', has, has', together⟩ :=
          ih fun c member => plain c (List.mem_append_left _ member)
        rw [List.foldl_concat, List.foldl_concat, List.foldl_concat]
        refine together.stroke has has' fun c isDoubtful => plain c ?_
        rw [isDoubtful]
        exact List.mem_append_right _ List.mem_cons_self
  obtain ⟨before, line, before', line', has, has', together⟩ := run
  rw [has.eq, has'.eq, eq_comm]
  exact together.eq_iff

end Editors

end Linux012.Lib
