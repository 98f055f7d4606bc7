/-
Every total in the range of an expression comes up.

The totals of an expression lie between its least and its greatest total, and there is no gap
between the two: any sum of dice between the least and the greatest is a sum of faces, and every
face is drawn from some words.

* **`exists_words_draw`** — words that a face is drawn from, all of which the draw takes;
* **`exists_words_drawFaces`** — the same for several dice;
* **`exists_faces_sum`** — faces that add up to a given sum;
* **`exists_addModifier_eq`** — a sum that gives a total, also where adding the modifier stops at an
  end of 64 signed bits;
* **`Expression.roll_range_exact`** — the totals of an expression are the numbers in its range.
-/
import ChatDice.Proofs.Roll.Independence

namespace ChatDice

open RollM

/-! ### Faces -/

theorem exists_mem_facePairs {sides f : Nat} (hle : sides ≤ wordCount) (hf : 1 ≤ f)
    (hsides : f ≤ sides) : ∃ words, words ∈ facePairs sides f := by
  have hpos : 0 < sides := by omega
  obtain ⟨k, rfl⟩ := Nat.exists_eq_add_of_le hf
  -- even its share of the pairs rounded down is one pair or more
  have hshare : 0 < wordCount * wordCount / sides :=
    Nat.div_pos (Nat.le_trans hle (Nat.le_mul_of_pos_left _ (by decide))) hpos
  have hcard := div_le_card_scaledTo (show k < sides by omega) (wordCount * wordCount)
  refine Set.nonempty_of_ncard_ne_zero ?_
  rw [ncard_facePairs hpos hle]
  omega

/-- Every face of a die is drawn from some words, one or two of them, and the draw takes no other
word. -/
theorem exists_words_draw {sides f : Nat} (hle : sides ≤ wordCount) (hf : 1 ≤ f)
    (hsides : f ≤ sides) :
    ∃ words : List UInt32, ∀ (G : Type) [WordSource G] (later : List UInt32) (behind : G),
      (draw sides).run (⟨words ++ later, behind⟩ : Queued G) = (f, ⟨later, behind⟩) := by
  obtain ⟨⟨first, second⟩, hpair⟩ := exists_mem_facePairs hle hf hsides
  rw [facePairs_eq_union (by omega) hle] at hpair
  rcases hpair with ⟨hundecided, hface⟩ | ⟨⟨hdecided, hface⟩, -⟩
  · refine ⟨[first, second], fun G _ later behind => ?_⟩
    show (draw sides).run (⟨first :: second :: later, behind⟩ : Queued G) = _
    rw [run_draw_of_undecided hundecided, hface]
  · refine ⟨[first], fun G _ later behind => ?_⟩
    show (draw sides).run (⟨first :: later, behind⟩ : Queued G) = _
    rw [run_draw_of_decided hdecided, hface]

theorem exists_words_drawFaces {sides : Nat} (hle : sides ≤ wordCount) {faces : List Nat}
    (hfaces : ∀ f ∈ faces, 1 ≤ f ∧ f ≤ sides) :
    ∃ words : List UInt32, ∀ (G : Type) [WordSource G] (behind : G),
      drawFaces (List.replicate faces.length sides) (⟨words, behind⟩ : Queued G) =
        (faces, ⟨[], behind⟩) := by
  induction faces with
  | nil => exact ⟨[], fun G _ behind => rfl⟩
  | cons f faces ih =>
    rw [List.forall_mem_cons] at hfaces
    obtain ⟨hf, hsides⟩ := hfaces.1
    obtain ⟨first, hfirst⟩ := exists_words_draw hle hf hsides
    obtain ⟨others, hothers⟩ := ih hfaces.2
    refine ⟨first ++ others, fun G _ behind => ?_⟩
    rw [List.length_cons, List.replicate_succ, drawFaces_cons, hfirst, hothers]

/-! ### Sums -/

/-- Dice can show any sum between that of ones and that of their highest faces. -/
theorem exists_faces_sum {sides count sum : Nat} (hlow : count ≤ sum)
    (hhigh : sum ≤ count * sides) :
    ∃ faces : List Nat, faces.length = count ∧ faces.sum = sum ∧
      ∀ f ∈ faces, 1 ≤ f ∧ f ≤ sides := by
  induction count generalizing sum with
  | zero =>
    have hsum : sum = 0 := by omega
    exact ⟨[], rfl, hsum.symm, nofun⟩
  | succ count ih =>
    have hpos : 0 < sides := Nat.pos_of_ne_zero (by rintro rfl; omega)
    have hones : count ≤ count * sides := Nat.le_mul_of_pos_right count hpos
    rw [Nat.succ_mul] at hhigh
    -- the first die shows as much as the ones of the others leave for it
    obtain ⟨faces, hlength, hsum, hfaces⟩ := @ih (sum - min sides (sum - count)) (by omega) (by omega)
    refine ⟨min sides (sum - count) :: faces, ?_, ?_, ?_⟩
    · rw [List.length_cons, hlength]
    · rw [List.sum_cons, hsum]
      omega
    · rw [List.forall_mem_cons]
      exact ⟨by omega, hfaces⟩

/-- Adding a modifier to the sums between two sums leaves no total between theirs out. -/
theorem exists_addModifier_eq {low high : Nat} {modifier total : Int64} (hle : low ≤ high)
    (hlow : addModifier low modifier ≤ total) (hhigh : total ≤ addModifier high modifier) :
    ∃ sum, low ≤ sum ∧ sum ≤ high ∧ addModifier sum modifier = total := by
  have hleast : leastInt64 = -9223372036854775808 := rfl
  have hgreatest : greatestInt64 = 9223372036854775807 := rfl
  have hmin := total.le_toInt
  have hmax := total.toInt_lt
  rw [Int64.le_iff_toInt_le, toInt_addModifier] at hlow hhigh
  -- the sum that the total asks for, or the nearest one if adding stops at an end
  refine ⟨(max (low : Int) (min high (total.toInt - modifier.toInt))).toNat, by omega, by omega, ?_⟩
  rw [← Int64.toInt_inj, toInt_addModifier]
  omega

/-! ### Totals -/

theorem Expression.exists_words_roll {e : Expression} (h : e.Fits) {sum : Nat}
    (hlow : e.count.toNat ≤ sum) (hhigh : sum ≤ e.count.toNat * e.sides.toNat) :
    ∃ words : List UInt32, ∀ (G : Type) [WordSource G] (behind : G),
      exec e.roll (⟨words, behind⟩ : Queued G) =
        (.ok (addModifier sum e.modifier), ⟨[], behind⟩) := by
  obtain ⟨faces, hlength, rfl, hfaces⟩ := exists_faces_sum hlow hhigh
  obtain ⟨words, hwords⟩ := exists_words_drawFaces (Nat.le_of_lt e.sides.toNat_lt) hfaces
  refine ⟨words, fun G _ behind => ?_⟩
  rw [Expression.exec_roll h, Expression.dice, ← hlength, hwords]

/-- The totals of an expression are the numbers from its least to its greatest total. From every
source a roll gives one of them, and each of them is rolled from some list of words, which the roll
takes to the last word and no further. -/
theorem Expression.roll_range_exact {e : Expression} (h : e.Fits) :
    ∃ top, e.greatest = .ok top ∧
      (∀ (G : Type) [WordSource G] (source : G), ∃ total left,
        exec e.roll source = (.ok total, left) ∧ e.least ≤ total ∧ total ≤ top) ∧
      ∀ total, e.least ≤ total → total ≤ top →
        ∃ words : List UInt32, ∀ (G : Type) [WordSource G] (behind : G),
          exec e.roll (⟨words, behind⟩ : Queued G) = (.ok total, ⟨[], behind⟩) := by
  have htop : e.greatest = .ok (addModifier (e.count.toNat * e.sides.toNat) e.modifier) :=
    if_pos h.product_le
  have hones : e.count.toNat ≤ e.count.toNat * e.sides.toNat :=
    Nat.le_mul_of_pos_right _ h.sides_pos
  refine ⟨_, htop, fun G _ source => ?_, fun total hlow hhigh => ?_⟩
  · obtain ⟨total, left, hexec, hleast, top, htop', htotal⟩ :=
      (Expression.yields_roll h).exists_exec source
    obtain rfl := Except.ok.inj (htop.symm.trans htop')
    exact ⟨total, left, hexec, hleast, htotal⟩
  · obtain ⟨sum, hsum, hsum', rfl⟩ := exists_addModifier_eq hones hlow hhigh
    exact Expression.exists_words_roll h hsum hsum'

/-- Two dice of six sides with a modifier that lets the higher half of their sums stop at the end of
64 signed bits. -/
theorem Expression.roll_range_exact_at_end :
    let e : Expression := ⟨2, 6, 9223372036854775800⟩
    e.Fits ∧ e.least = 9223372036854775802 ∧ e.greatest = .ok 9223372036854775807 ∧
      (e.least ≤ 9223372036854775805 ∧ (9223372036854775805 : Int64) ≤ 9223372036854775807) ∧
      ∃ words : List UInt32, ∀ (G : Type) [WordSource G] (behind : G),
        exec e.roll (⟨words, behind⟩ : Queued G) = (.ok 9223372036854775805, ⟨[], behind⟩) := by
  intro e
  have hfits : e.Fits := Expression.fits (by decide)
  have htop : e.greatest = .ok 9223372036854775807 := by decide
  have hbetween : e.least ≤ 9223372036854775805 ∧
      (9223372036854775805 : Int64) ≤ 9223372036854775807 := by decide
  obtain ⟨top, htop', -, hreached⟩ := Expression.roll_range_exact hfits
  obtain rfl := Except.ok.inj (htop.symm.trans htop')
  exact ⟨hfits, by decide, htop, hbetween, hreached _ hbetween.1 hbetween.2⟩

end ChatDice
