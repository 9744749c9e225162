/-
**Reading a line of text.**

The recogniser of `crates/streaming/src/ocr/rec.rs` gives a score for each class at each step along a
line of text: class 0 is the blank, the classes behind it are the entries of a dictionary, and the one
behind these is the space.  `decode_ctc` takes the class with the best score of each step, leaves out
blanks and repeats, and averages the scores of what is left.

Main definitions:

* `Ocr.winner`, `Ocr.decodeStep`, `Ocr.decodeCtc`, `Ocr.readOut` — the code;
* `Ocr.winners`, `Ocr.readable` — the best class of each step, and what is made of those that count.

Main results:

* `Ocr.winner_cases` — the best class of a step is the first one with the highest score;
* `Ocr.readOut_spells` — **the text is the one that the best classes spell**, each symbol scored by the
  first step of its run.
-/

import MibeeEye.CheckedReads
import MibeeEye.WordPaths
import MibeeEye.Text

set_option relaxedAutoImplicit false
set_option autoImplicit false

namespace Ocr

/-! ### The code -/

/-- The operations of `f32` that are used: `f32::MIN`, `>`, `max(0.0)`, and the sum of some numbers
divided by how many they are, or by one. -/
structure Scores (F : Type) where
  lowest : F
  gt : F → F → Bool
  nonneg : F → F
  mean : List F → F

variable {F : Type} (P : Scores F) (dict : List String)

/-- `SPACE_CLASS_OFFSET` -/
def spaceClassOffset : ℕ := 1

/-- The class of a row with the best score, and the score. -/
def winner (row : List F) : ℕ × F :=
  row.zipIdx.foldl (fun best v => if P.gt v.1 best.2 then (v.2, v.1) else best) (0, P.lowest)

/-- The text of a class. -/
def symbol (best : ℕ) : List Char :=
  if best = dict.length + spaceClassOffset then [' ']
  else ((dict[best - spaceClassOffset]?).map String.toList).getD []

/-- The variables of the loop. -/
structure Decoded (F : Type) where
  text : List Char := []
  probs : List F := []
  lastClass : ℕ := 0

/-- The best class of a step is taken in. -/
def Decoded.note (s : Decoded F) (best : ℕ × F) : Decoded F :=
  if best.1 ≠ 0 ∧ best.1 ≠ s.lastClass then
    ⟨s.text ++ symbol dict best.1, s.probs ++ [P.nonneg best.2], best.1⟩
  else ⟨s.text, s.probs, best.1⟩

/-- One step of the loop. -/
def decodeStep (data : List F) (nClasses : ℕ) (s : Decoded F) (step : ℕ) :
    Checked.Run String (Decoded F) := do
  let row ← Checked.range data (step * nClasses) ((step + 1) * nClasses)
  return s.note P dict (winner P row)

/-- `decode_ctc` -/
def decodeCtc (data : List F) (steps nClasses : ℕ) : Checked.Run String (Option (List Char × F)) := do
  let s ← (List.range steps).foldlM (decodeStep P dict data nClasses) {}
  return if Text.trim s.text = [] then none else some (s.text, P.mean s.probs)

/-- What `recognize` does with the output of the model. -/
def readOut (data : List F) (nClasses : ℕ) : Checked.Run String (Option (List Char × F)) :=
  if nClasses = 0 ∨ data.length % nClasses ≠ 0 then Checked.bail "bad rec output"
  else decodeCtc P dict data (data.length / nClasses) nClasses

/-! ### The best class of a step -/

variable {P dict} {row : List F} {x : F}

theorem winner_concat : winner P (row ++ [x]) =
    if P.gt x (winner P row).2 then (row.length, x) else winner P row := by
  rw [winner, List.zipIdx_append, List.foldl_append, List.zipIdx_singleton, List.foldl_cons,
    List.foldl_nil, Nat.zero_add]
  rfl

/-- What is known of the best class of a row: nothing is above the lowest score, or it is the first
class with the highest score. -/
theorem winner_cases [LinearOrder F] (hgt : ∀ a b, P.gt a b = decide (b < a)) (row : List F) :
    (winner P row = (0, P.lowest) ∧ ∀ w ∈ row, w ≤ P.lowest) ∨
      (row[(winner P row).1]? = some (winner P row).2 ∧ P.lowest < (winner P row).2 ∧
        (∀ w ∈ row, w ≤ (winner P row).2) ∧ ∀ w ∈ row.take (winner P row).1, w < (winner P row).2) := by
  induction row using List.reverseRecOn with
  | nil => exact Or.inl ⟨rfl, by simp⟩
  | append_singleton row x ih =>
      rw [winner_concat, hgt]
      by_cases hx : (winner P row).2 < x
      · -- A new highest score: all earlier ones are below it.
        rw [if_pos (decide_eq_true hx)]
        have hbelow : P.lowest < x ∧ ∀ w ∈ row, w < x := by
          rcases ih with ⟨hwin, hall⟩ | ⟨-, hlow, hall, -⟩
          · rw [hwin] at hx
            exact ⟨hx, fun w hw => (hall w hw).trans_lt hx⟩
          · exact ⟨hlow.trans hx, fun w hw => (hall w hw).trans_lt hx⟩
        refine Or.inr ⟨by simp, hbelow.1, ?_, by simpa using hbelow.2⟩
        intro w hw
        rcases List.mem_append.1 hw with hw | hw
        · exact (hbelow.2 w hw).le
        · exact (List.mem_singleton.1 hw).le
      · rw [if_neg (by simpa using hx)]
        have hx := not_lt.1 hx
        rcases ih with ⟨hwin, hall⟩ | ⟨hget, hlow, hall, hfirst⟩
        · refine Or.inl ⟨hwin, fun w hw => ?_⟩
          rw [hwin] at hx
          rcases List.mem_append.1 hw with hw | hw
          · exact hall w hw
          · exact (List.mem_singleton.1 hw).le.trans hx
        · have hlt := (List.getElem?_eq_some_iff.1 hget).1
          refine Or.inr ⟨?_, hlow, fun w hw => ?_, ?_⟩
          · rw [List.getElem?_append_left hlt, hget]
          · rcases List.mem_append.1 hw with hw | hw
            · exact hall w hw
            · exact (List.mem_singleton.1 hw).le.trans hx
          · rw [List.take_append_of_le_length hlt.le]
            exact hfirst

/-! ### The text -/

variable (P) in
/-- The best class of each step, and its score. -/
def winners (data : List F) (steps nClasses : ℕ) : List (ℕ × F) :=
  (List.range steps).map fun step => winner P ((data.drop (step * nClasses)).take nClasses)

variable (P dict) in
/-- The text of some picks, and their score, if there is anything to read. -/
def readable (picks : List (ℕ × F)) : Option (List Char × F) :=
  if Text.trim (picks.flatMap fun b => symbol dict b.1) = [] then none
  else some (picks.flatMap fun b => symbol dict b.1, P.mean (picks.map fun b => P.nonneg b.2))

variable {data : List F} {nClasses : ℕ}

theorem winners_succ (steps : ℕ) : winners P data (steps + 1) nClasses =
    winners P data steps nClasses ++ [winner P ((data.drop (steps * nClasses)).take nClasses)] := by
  simp [winners, List.range_succ]

/-- The loop takes in the best class of each step. -/
theorem foldlM_decodeStep {steps : ℕ} (hsteps : steps * nClasses ≤ data.length) (s : Decoded F) :
    (List.range steps).foldlM (decodeStep P dict data nClasses) s =
      .ok ((winners P data steps nClasses).foldl (Decoded.note P dict) s) := by
  induction steps generalizing s with
  | zero => rfl
  | succ k ih =>
      have hwidth : (k + 1) * nClasses - k * nClasses = nClasses := by
        rw [Nat.succ_mul, Nat.add_sub_cancel_left]
      have hle : k * nClasses ≤ (k + 1) * nClasses := Nat.mul_le_mul_right nClasses (Nat.le_succ k)
      have hrow := Checked.range_eq (ε := String) hle hsteps
      rw [hwidth] at hrow
      rw [List.range_succ, List.foldlM_append, ih (hle.trans hsteps) s, Checked.ok_bind, winners_succ,
        List.foldl_append]
      simp [decodeStep, hrow, pure, Except.pure]

/-- The text of the steps that count is added. -/
theorem text_foldl_note (bs : List (ℕ × F)) (s : Decoded F) :
    (bs.foldl (Decoded.note P dict) s).text =
      s.text ++ (Ctc.collapse 0 Prod.fst s.lastClass bs).flatMap fun b => symbol dict b.1 := by
  induction bs generalizing s with
  | nil => simp [Ctc.collapse]
  | cons b bs ih =>
      rw [List.foldl_cons, ih, Decoded.note, Ctc.collapse]
      split <;> simp

/-- And so are their scores. -/
theorem probs_foldl_note (bs : List (ℕ × F)) (s : Decoded F) :
    (bs.foldl (Decoded.note P dict) s).probs =
      s.probs ++ (Ctc.collapse 0 Prod.fst s.lastClass bs).map fun b => P.nonneg b.2 := by
  induction bs generalizing s with
  | nil => simp [Ctc.collapse]
  | cons b bs ih =>
      rw [List.foldl_cons, ih, Decoded.note, Ctc.collapse]
      split <;> simp

/-- **The text is the one that the best classes spell**, each symbol scored by the first step of its
run. -/
theorem readOut_spells (hn : nClasses ≠ 0) (hdiv : data.length % nClasses = 0) :
    ∃ picks, picks = Ctc.collapse 0 Prod.fst 0 (winners P data (data.length / nClasses) nClasses) ∧
      Ctc.Spells 0 ((winners P data (data.length / nClasses) nClasses).map Prod.fst)
        (picks.map Prod.fst) ∧
      readOut P dict data nClasses = .ok (readable P dict picks) := by
  refine ⟨_, rfl, Ctc.spells_collapse (Or.inr rfl), ?_⟩
  rw [readOut, if_neg (by simp [hn, hdiv]), decodeCtc,
    foldlM_decodeStep (Nat.div_mul_le_self _ _), Checked.ok_bind, text_foldl_note, probs_foldl_note]
  rfl

/-- Scores that are natural numbers. -/
def natScores : Scores ℕ where
  lowest := 0
  gt a b := decide (b < a)
  nonneg a := a
  mean l := l.foldl (· + ·) 0 / max l.length 1

/-- Five steps of three classes: an A over two of them, a blank, an A, and the space. -/
def fiveSteps : List ℕ := [0, 9, 0, 1, 7, 2, 9, 0, 3, 0, 8, 0, 1, 2, 4]

theorem spells_fiveSteps :
    readOut natScores ["A"] fiveSteps 3 = .ok (some (['A', 'A', ' '], 7)) ∧
    ∃ picks, picks = Ctc.collapse 0 Prod.fst 0 (winners natScores fiveSteps (15 / 3) 3) ∧
      Ctc.Spells 0 ((winners natScores fiveSteps (15 / 3) 3).map Prod.fst) (picks.map Prod.fst) ∧
      readOut natScores ["A"] fiveSteps 3 = .ok (readable natScores ["A"] picks) :=
  ⟨by decide, readOut_spells (by decide) (by decide)⟩

end Ocr
