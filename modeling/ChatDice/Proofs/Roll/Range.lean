/-
The range that the totals of an expression lie in.

* **`toInt_addModifier`** — a modifier is added without bound and the result stopped at the ends
  of 64 signed bits, so a larger sum never gives a smaller total (`addModifier_mono`);
* **`yields_rollDice`** — dice that cannot overflow are rolled without a fault, and each of them
  adds at least one and at most its number of sides;
* **`Expression.yields_roll`**, **`Expression.yields_rollRepeatedly`** — the totals of an
  expression whose sum fits lie between its least and its greatest total;
* **`Expression.fits`** — an expression within the limits has such a sum.
-/
import ChatDice.Proofs.Random.Face
import ChatDice.Proofs.Roll.Outcome
import ChatDice.Bounds

namespace ChatDice

/-! ### Adding the modifier -/

theorem toInt_ofIntClamp (x : Int) :
    (Int64.ofIntClamp x).toInt = max leastInt64 (min x greatestInt64) := by
  have hleast : Int64.minValue.toInt = leastInt64 := by decide
  have hgreatest : Int64.maxValue.toInt = greatestInt64 := by decide
  have hends : leastInt64 ≤ greatestInt64 := by decide
  by_cases hl : Int64.minValue.toInt ≤ x
  · by_cases hr : x ≤ Int64.maxValue.toInt
    · rw [Int64.toInt_ofIntClamp hl hr]
      omega
    · rw [Int64.ofIntClamp, dif_pos hl, dif_neg hr]
      omega
  · rw [Int64.ofIntClamp, dif_neg hl]
    omega

theorem toInt_addModifier (sum : Nat) (modifier : Int64) :
    (addModifier sum modifier).toInt = max leastInt64 (min (sum + modifier.toInt) greatestInt64) :=
  toInt_ofIntClamp _

theorem addModifier_mono {a b : Nat} (h : a ≤ b) (modifier : Int64) :
    addModifier a modifier ≤ addModifier b modifier := by
  rw [Int64.le_iff_toInt_le, toInt_addModifier, toInt_addModifier]
  omega

/-! ### Rolling dice -/

/-- The sum of the highest faces of the dice fits in 64 signed bits, and the dice have sides. -/
structure Expression.Fits (e : Expression) : Prop where
  sides_pos : 0 < e.sides.toNat
  product_le : e.count.toNat * e.sides.toNat ≤ greatestInt64

/-- An expression within the limits fits. -/
theorem Expression.fits {e : Expression} (h : e.violation? = none) : e.Fits := by
  obtain ⟨hcount, hmin, hmax⟩ := e.violation?_eq_none_iff.mp h
  refine ⟨Nat.lt_of_lt_of_le (by decide) hmin, ?_⟩
  calc e.count.toNat * e.sides.toNat
      ≤ maxDice * maxSides := Nat.mul_le_mul hcount hmax
    _ ≤ greatestInt64 := by decide

/-- A total is not below the least and not above the greatest total of an expression, and the
latter exists. -/
def Expression.InRange (e : Expression) (total : Int64) : Prop :=
  e.least ≤ total ∧ ∃ top, e.greatest = .ok top ∧ total ≤ top

variable {G : Type} [WordSource G]

open RollM

theorem yields_draw {sides : Nat} (hpos : 0 < sides) (hle : sides ≤ wordCount) :
    Yields (ExceptT.lift (draw sides) : RollM G Nat) fun face => 1 ≤ face ∧ face ≤ sides :=
  yields_lift (draw_mem hpos hle)

/-- Every die adds at least one and at most its sides, and as long as even that fits, no
addition overflows. -/
theorem yields_rollDice {sides : Nat} (hpos : 0 < sides) (hle : sides ≤ wordCount)
    (count sum : Nat) (hfit : sum + count * sides ≤ greatestInt64) :
    Yields (rollDice sides count sum : RollM G Nat)
      fun total => sum + count ≤ total ∧ total ≤ sum + count * sides := by
  induction count generalizing sum with
  | zero => exact yields_pure ⟨Nat.le_refl _, by omega⟩
  | succ count ih =>
    rw [Nat.succ_mul] at hfit ⊢
    rw [rollDice]
    refine Yields.bind (yields_draw hpos hle) fun face ⟨hlow, hhigh⟩ => ?_
    -- the face is at most `sides`, which the bound has set aside for this die
    have hsum : sum + face + count * sides ≤ greatestInt64 := by omega
    rw [if_pos (by omega)]
    refine (ih (sum + face) hsum).mono fun total ⟨htotal, htop⟩ => ?_
    omega

theorem Expression.yields_roll {e : Expression} (h : e.Fits) :
    Yields (e.roll : RollM G Int64) e.InRange := by
  have hsides : e.sides.toNat ≤ wordCount := Nat.le_of_lt e.sides.toNat_lt
  have hfit : 0 + e.count.toNat * e.sides.toNat ≤ greatestInt64 := by
    rw [Nat.zero_add]
    exact h.product_le
  rw [Expression.roll, if_neg (Nat.ne_of_gt h.sides_pos)]
  refine Yields.bind (yields_rollDice h.sides_pos hsides _ 0 hfit) fun sum ⟨hlow, hhigh⟩ => ?_
  rw [Nat.zero_add] at hlow hhigh
  refine yields_pure ⟨addModifier_mono hlow _, addModifier (e.count.toNat * e.sides.toNat) e.modifier,
    if_pos h.product_le, addModifier_mono hhigh _⟩

/-- Rolled again and again, an expression gives one total in its range for each time. -/
theorem Expression.yields_rollRepeatedly {e : Expression} (h : e.Fits) (count : Nat) :
    Yields (e.rollRepeatedly count : RollM G (List Int64))
      fun totals => totals.length = count ∧ ∀ total ∈ totals, e.InRange total := by
  induction count with
  | zero => exact yields_pure ⟨rfl, nofun⟩
  | succ count ih =>
    rw [rollRepeatedly]
    refine Yields.bind (yields_roll h) fun total htotal => ?_
    refine Yields.bind ih fun totals ⟨hlength, htotals⟩ => ?_
    exact yields_pure ⟨congrArg (· + 1) hlength, List.forall_mem_cons.mpr ⟨htotal, htotals⟩⟩

end ChatDice
