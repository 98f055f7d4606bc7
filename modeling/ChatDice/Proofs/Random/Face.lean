/-
The face that is drawn, as a fraction of the range of two words.

Two words written one after another are a number below `wordCount * wordCount`. The face is that
number, scaled down to the number of sides and rounded down:

* **`one_add_highPart_add_carry`** — what a draw computes from two words is this face;
* **`carry_eq_zero`** — a draw that stops after one word gives the same face as any second word
  would;
* **`draw_eq_face`** — so a draw gives the face that the next two words point at, however many of
  them it takes, and one of the faces of the die (**`draw_mem`**);
* **`drawFaces_append`** — dice that are drawn one after another share the source, and nothing else.
-/
import Mathlib.Tactic.Ring
import ChatDice.Random.Source

namespace ChatDice

/-- The face that two words point at, taken as one number. -/
def face (sides : Nat) (first second : UInt32) : Nat :=
  1 + sides * (first.toNat * wordCount + second.toNat) / (wordCount * wordCount)

theorem face_pos (sides : Nat) (first second : UInt32) : 1 ≤ face sides first second :=
  Nat.le_add_right _ _

theorem words_lt (first second : UInt32) :
    first.toNat * wordCount + second.toNat < wordCount * wordCount := by
  have hfirst : first.toNat < wordCount := first.toNat_lt
  have hsecond : second.toNat < wordCount := second.toNat_lt
  calc first.toNat * wordCount + second.toNat
      < first.toNat * wordCount + wordCount := Nat.add_lt_add_left hsecond _
    _ = (first.toNat + 1) * wordCount := (Nat.succ_mul _ _).symm
    _ ≤ wordCount * wordCount := Nat.mul_le_mul_right _ hfirst

theorem face_le {sides : Nat} (hpos : 0 < sides) (first second : UInt32) :
    face sides first second ≤ sides := by
  have hlt : sides * (first.toNat * wordCount + second.toNat) / (wordCount * wordCount) < sides := by
    rw [Nat.div_lt_iff_lt_mul (Nat.mul_pos (by decide) (by decide))]
    exact Nat.mul_lt_mul_of_pos_left (words_lt first second) hpos
  rw [face, Nat.add_comm]
  exact hlt

theorem highPart_lt {sides : Nat} (hpos : 0 < sides) (word : UInt32) :
    highPart sides word < sides := by
  have hword : word.toNat < wordCount := word.toNat_lt
  rw [highPart, Nat.div_lt_iff_lt_mul (by decide), Nat.mul_comm]
  exact Nat.mul_lt_mul_of_pos_left hword hpos

/-- What the first word leaves over and what the second adds decide on the carry. -/
theorem carry_eq_div {sides : Nat} (hpos : 0 < sides) (hle : sides ≤ wordCount)
    (first second : UInt32) :
    carry sides first second = (lowPart sides first + highPart sides second) / wordCount := by
  have hlow : lowPart sides first < wordCount := Nat.mod_lt _ (by decide)
  have hhigh : highPart sides second < wordCount :=
    Nat.lt_of_lt_of_le (highPart_lt hpos second) hle
  rw [carry]
  split
  · next h => exact (Nat.div_eq_of_lt_le (by omega) (by omega)).symm
  · next h => exact (Nat.div_eq_of_lt (by omega)).symm

theorem one_add_highPart_add_carry {sides : Nat} (hpos : 0 < sides) (hle : sides ≤ wordCount)
    (first second : UInt32) :
    1 + highPart sides first + carry sides first second = face sides first second := by
  have hword : 0 < wordCount := by decide
  have hproduct : first.toNat * sides = wordCount * highPart sides first + lowPart sides first :=
    (Nat.div_add_mod _ _).symm
  rw [carry_eq_div hpos hle, face, Nat.add_assoc]
  congr 1
  calc highPart sides first + (lowPart sides first + highPart sides second) / wordCount
      = (wordCount * highPart sides first + (lowPart sides first + highPart sides second)) /
          wordCount := by rw [Nat.mul_add_div hword]
    _ = (first.toNat * sides + second.toNat * sides / wordCount) / wordCount := by
        rw [← Nat.add_assoc, ← hproduct, highPart]
    _ = (wordCount * (first.toNat * sides) + second.toNat * sides) / wordCount / wordCount := by
        rw [Nat.mul_add_div hword]
    _ = sides * (first.toNat * wordCount + second.toNat) / (wordCount * wordCount) := by
        rw [Nat.div_div_eq_div_mul]
        congr 1
        ring

/-- Where a draw stops after one word, no second word would change the face. -/
theorem carry_eq_zero {sides : Nat} (hpos : 0 < sides) (hle : sides ≤ wordCount)
    {first : UInt32} (h : isUndecided sides first = false) (second : UInt32) :
    carry sides first second = 0 := by
  have hhigh := highPart_lt hpos second
  have hlow : lowPart sides first ≤ wordCount - sides := by
    simpa [isUndecided] using h
  rw [carry, if_neg (by omega)]

variable {G : Type} [WordSource G]

theorem run_nextWord (source : G) : nextWord.run source = WordSource.next source := rfl

/-- A draw takes one word, and a second one if the first leaves the face undecided. -/
theorem run_draw (sides : Nat) (source : G) :
    (draw sides).run source =
      let (first, source₁) := WordSource.next source
      if isUndecided sides first then
        let (second, source₂) := WordSource.next source₁
        (1 + highPart sides first + carry sides first second, source₂)
      else (1 + highPart sides first, source₁) := by
  rw [draw, StateT.run_bind, run_nextWord]
  dsimp only
  show StateT.run (ite _ _ _) _ = _
  split <;> rfl

/-- A draw gives the face that the next two words of the source point at, also where it takes only
the first of them. -/
theorem draw_eq_face {sides : Nat} (hpos : 0 < sides) (hle : sides ≤ wordCount) (source : G) :
    ((draw sides).run source).1 =
      face sides (WordSource.next source).1 (WordSource.next (WordSource.next source).2).1 := by
  rw [run_draw, ← one_add_highPart_add_carry hpos hle]
  dsimp only
  split
  · rfl
  · next h => rw [carry_eq_zero hpos hle (by simpa using h), Nat.add_zero]

/-- A draw gives one of the faces of the die. -/
theorem draw_mem {sides : Nat} (hpos : 0 < sides) (hle : sides ≤ wordCount) (source : G) :
    1 ≤ ((draw sides).run source).1 ∧ ((draw sides).run source).1 ≤ sides := by
  rw [draw_eq_face hpos hle]
  exact ⟨face_pos sides _ _, face_le hpos _ _⟩

/-! ### Several dice -/

/-- The faces of dice that are drawn one after another, and the source behind them. -/
def drawFaces (dice : List Nat) (source : G) : List Nat × G :=
  (dice.mapM draw).run source

@[simp] theorem drawFaces_nil (source : G) : drawFaces [] source = ([], source) := rfl

theorem drawFaces_cons (sides : Nat) (dice : List Nat) (source : G) :
    drawFaces (sides :: dice) source =
      (((draw sides).run source).1 :: (drawFaces dice ((draw sides).run source).2).1,
        (drawFaces dice ((draw sides).run source).2).2) := by
  rw [drawFaces, List.mapM_cons]
  rfl

theorem drawFaces_append (dice dice' : List Nat) (source : G) :
    drawFaces (dice ++ dice') source =
      ((drawFaces dice source).1 ++ (drawFaces dice' (drawFaces dice source).2).1,
        (drawFaces dice' (drawFaces dice source).2).2) := by
  induction dice generalizing source with
  | nil => rfl
  | cons sides dice ih =>
    rw [List.cons_append, drawFaces_cons, drawFaces_cons, ih]
    rfl

theorem length_drawFaces (dice : List Nat) (source : G) :
    (drawFaces dice source).1.length = dice.length := by
  induction dice generalizing source with
  | nil => rfl
  | cons sides dice ih => rw [drawFaces_cons, List.length_cons, List.length_cons, ih]

end ChatDice
