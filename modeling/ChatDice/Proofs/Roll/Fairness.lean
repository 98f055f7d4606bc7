/-
A die is as fair as two words allow.

Every pair of words gives one face, and the pairs cannot be dealt out evenly unless their number is
a multiple of the number of sides. They are dealt out as evenly as can be:

* **`scaledTo_eq_Ico`** — the numbers that are scaled down to one face are those between two
  quotients, so there are as many of them as go into the range, rounded down or up
  (**`card_scaledTo_eq_or`**);
* **`ncard_facePairs`** — the pairs of words that a face is drawn from are such numbers;
* **`draw_fair`** — what is drawn, and from how many pairs of words each face comes.
-/
import Mathlib.Algebra.Order.Floor.Div
import Mathlib.Data.Set.Card
import Mathlib.Order.Interval.Finset.Nat
import ChatDice.Proofs.Roll.Order

namespace ChatDice

open RollM

/-! ### Numbers scaled down -/

/-- The numbers below `limit` that `n * · / limit` sends to `k`. -/
def scaledTo (n limit k : Nat) : Finset Nat :=
  {w ∈ Finset.range limit | n * w / limit = k}

theorem scaledTo_eq_Ico {n k : Nat} (hk : k < n) (limit : Nat) :
    scaledTo n limit k = Finset.Ico (limit * k ⌈/⌉ n) (limit * (k + 1) ⌈/⌉ n) := by
  have hn : 0 < n := Nat.zero_lt_of_lt hk
  ext w
  rw [scaledTo, Finset.mem_filter, Finset.mem_range, Finset.mem_Ico, ← Nat.not_le,
    ceilDiv_le_iff_le_mul hn, ← Nat.not_le, ceilDiv_le_iff_le_mul hn, Nat.not_le, Nat.not_le]
  constructor
  · rintro ⟨hw, rfl⟩
    have hlimit : 0 < limit := Nat.zero_lt_of_lt hw
    exact ⟨Nat.mul_div_le _ _, Nat.lt_mul_div_succ _ hlimit⟩
  · rintro ⟨hlow, hhigh⟩
    refine ⟨?_, Nat.div_eq_of_lt_le ?_ ?_⟩
    · -- the face above `k` is at most the last one
      have hlast : limit * (k + 1) ≤ limit * n := Nat.mul_le_mul_left limit hk
      rw [Nat.mul_comm limit n] at hlast
      exact Nat.lt_of_mul_lt_mul_left (Nat.lt_of_lt_of_le hhigh hlast)
    · rwa [Nat.mul_comm k]
    · rwa [Nat.mul_comm (k + 1)]

/-- Every number has its share of a range, at least rounded down. -/
theorem div_le_card_scaledTo {n k : Nat} (hk : k < n) (limit : Nat) :
    limit / n ≤ (scaledTo n limit k).card := by
  have hn : 0 < n := Nat.zero_lt_of_lt hk
  have hlow : n * (limit * k ⌈/⌉ n) ≤ limit * k + n - 1 := Nat.mul_div_le _ _
  have hhigh : limit * (k + 1) ≤ n * (limit * (k + 1) ⌈/⌉ n) := le_smul_ceilDiv hn
  have hshare : n * (limit / n) ≤ limit := Nat.mul_div_le limit n
  rw [scaledTo_eq_Ico hk, Nat.card_Ico]
  refine Nat.le_sub_of_add_le (Nat.le_of_lt_succ (Nat.lt_of_mul_lt_mul_left (a := n) ?_))
  rw [Nat.mul_succ] at hhigh
  calc n * (limit / n + limit * k ⌈/⌉ n)
      = n * (limit / n) + n * (limit * k ⌈/⌉ n) := Nat.mul_add _ _ _
    _ ≤ limit + (limit * k + n - 1) := Nat.add_le_add hshare hlow
    _ < limit * k + limit + n := by omega
    _ ≤ n * (limit * (k + 1) ⌈/⌉ n) + n := Nat.add_le_add_right hhigh n
    _ = n * (limit * (k + 1) ⌈/⌉ n).succ := (Nat.mul_succ _ _).symm

/-- No number has more than its share of a range, rounded up. -/
theorem card_scaledTo_le {n k : Nat} (hk : k < n) (limit : Nat) :
    (scaledTo n limit k).card ≤ limit ⌈/⌉ n := by
  have hn : 0 < n := Nat.zero_lt_of_lt hk
  have hlow : limit * k ≤ n * (limit * k ⌈/⌉ n) := le_smul_ceilDiv hn
  have hshare : limit ≤ n * (limit ⌈/⌉ n) := le_smul_ceilDiv hn
  rw [scaledTo_eq_Ico hk, Nat.card_Ico, Nat.sub_le_iff_le_add, ceilDiv_le_iff_le_mul hn]
  calc limit * (k + 1)
      = limit + limit * k := by rw [Nat.mul_succ, Nat.add_comm]
    _ ≤ n * (limit ⌈/⌉ n) + n * (limit * k ⌈/⌉ n) := Nat.add_le_add hshare hlow
    _ = n * (limit ⌈/⌉ n + limit * k ⌈/⌉ n) := (Nat.mul_add _ _ _).symm

theorem ceilDiv_le_div_succ {n : Nat} (hn : 0 < n) (limit : Nat) :
    limit ⌈/⌉ n ≤ limit / n + 1 := by
  rw [ceilDiv_le_iff_le_mul hn]
  exact Nat.le_of_lt (Nat.lt_mul_div_succ limit hn)

theorem ceilDiv_eq_div {n limit : Nat} (hn : 0 < n) (h : n ∣ limit) :
    limit ⌈/⌉ n = limit / n := by
  obtain ⟨m, rfl⟩ := h
  rw [Nat.mul_div_cancel_left m hn]
  exact smul_ceilDiv hn m

theorem card_scaledTo_eq_or {n k : Nat} (hk : k < n) (limit : Nat) :
    (scaledTo n limit k).card = limit / n ∨ (scaledTo n limit k).card = limit ⌈/⌉ n := by
  have hlow := div_le_card_scaledTo hk limit
  have hhigh := card_scaledTo_le hk limit
  have hgap := ceilDiv_le_div_succ (Nat.zero_lt_of_lt hk) limit
  omega

theorem card_scaledTo_of_dvd {n k limit : Nat} (hk : k < n) (h : n ∣ limit) :
    (scaledTo n limit k).card = limit / n := by
  have hexact := ceilDiv_eq_div (Nat.zero_lt_of_lt hk) h
  rcases card_scaledTo_eq_or hk limit with hcard | hcard
  · exact hcard
  · rw [hcard, hexact]

/-! ### Pairs of words -/

/-- A script of two words. -/
def Script.pair (first second : UInt32) : Script where
  words := #[first, second]
  nonempty := Nat.zero_lt_two
  used := 0

/-- The pairs of words from which a face is drawn. -/
def facePairs (sides f : Nat) : Set (UInt32 × UInt32) :=
  {words | ((draw sides).run (Script.pair words.1 words.2)).1 = f}

theorem draw_pair {sides : Nat} (hpos : 0 < sides) (hle : sides ≤ wordCount)
    (first second : UInt32) :
    ((draw sides).run (Script.pair first second)).1 = face sides first second :=
  draw_eq_face hpos hle (Script.pair first second)

theorem mem_facePairs_iff {sides k : Nat} (hpos : 0 < sides) (hle : sides ≤ wordCount)
    (words : UInt32 × UInt32) :
    words ∈ facePairs sides (1 + k) ↔
      words.1.toNat * wordCount + words.2.toNat ∈ scaledTo sides (wordCount * wordCount) k := by
  rw [facePairs, Set.mem_ofPred_eq, draw_pair hpos hle, face, Nat.add_left_cancel_iff, scaledTo,
    Finset.mem_filter, Finset.mem_range]
  exact (and_iff_right (words_lt words.1 words.2)).symm

theorem exists_words_eq {w : Nat} (h : w < wordCount * wordCount) :
    ∃ words : UInt32 × UInt32, words.1.toNat * wordCount + words.2.toNat = w := by
  have htoNat {n : Nat} (hn : n < wordCount) : (UInt32.ofNat n).toNat = n := by
    rw [UInt32.toNat_ofNat']
    exact Nat.mod_eq_of_lt hn
  refine ⟨(UInt32.ofNat (w / wordCount), UInt32.ofNat (w % wordCount)), ?_⟩
  rw [htoNat (Nat.div_lt_of_lt_mul h), htoNat (Nat.mod_lt w (by decide))]
  exact Nat.div_add_mod' w wordCount

theorem words_inj {first second first' second' : UInt32}
    (h : first.toNat * wordCount + second.toNat = first'.toNat * wordCount + second'.toNat) :
    first = first' ∧ second = second' := by
  have hsecond : second.toNat < wordCount := second.toNat_lt
  have hsecond' : second'.toNat < wordCount := second'.toNat_lt
  rw [← UInt32.toNat_inj, ← UInt32.toNat_inj]
  rw [wordCount] at h hsecond hsecond'
  omega

/-- Pairs of words are the numbers below `wordCount * wordCount`, written in two digits. -/
theorem ncard_facePairs {sides : Nat} (hpos : 0 < sides) (hle : sides ≤ wordCount) (k : Nat) :
    (facePairs sides (1 + k)).ncard = (scaledTo sides (wordCount * wordCount) k).card := by
  rw [← Set.ncard_coe_finset]
  refine Set.ncard_congr (fun words _ => words.1.toNat * wordCount + words.2.toNat) ?_ ?_ ?_
  · intro words h
    exact (mem_facePairs_iff hpos hle words).mp h
  · intro words words' _ _ h
    exact Prod.ext_iff.mpr (words_inj h)
  · intro w h
    have hlt : w < wordCount * wordCount := Finset.mem_range.mp (Finset.mem_filter.mp h).1
    obtain ⟨words, rfl⟩ := exists_words_eq hlt
    exact ⟨words, (mem_facePairs_iff hpos hle words).mpr h, rfl⟩

/-! ### One die -/

theorem dvd_wordCount_of_isPowerOfTwo {sides : Nat} (hle : sides ≤ wordCount)
    (h : sides.isPowerOfTwo) : sides ∣ wordCount := by
  obtain ⟨k, rfl⟩ := h
  have hword : wordCount = 2 ^ 32 := by decide
  rw [hword] at hle ⊢
  exact Nat.pow_dvd_pow 2 ((Nat.pow_le_pow_iff_right (by decide)).mp hle)

/-- A die that is rolled alone shows the face that is drawn for it. -/
theorem exists_exec_roll_die {G : Type} [WordSource G] {sides : UInt32}
    (hpos : 0 < sides.toNat) (source : G) :
    ∃ total, exec (Expression.roll ⟨1, sides, 0⟩) source =
        (.ok total, ((draw sides.toNat).run source).2) ∧
      total.toInt = ((draw sides.toNat).run source).1 := by
  have hsides : sides.toNat < wordCount := sides.toNat_lt
  have hfits : (⟨1, sides, 0⟩ : Expression).Fits := by
    refine ⟨hpos, ?_⟩
    show 1 * sides.toNat ≤ greatestInt64
    have hends : wordCount ≤ greatestInt64 := by decide
    omega
  have hface := draw_mem hpos (Nat.le_of_lt hsides) source
  refine ⟨_, Expression.exec_roll hfits source, ?_⟩
  rw [toInt_addModifier]
  show max leastInt64 (min ((((draw sides.toNat).run source).1 + 0 : Nat) + 0) greatestInt64) = _
  have hends : leastInt64 ≤ 0 ∧ wordCount ≤ greatestInt64 := by decide
  omega

/-- The face of a die is a fraction of the range of the next two words, also where only the first
of them is taken, and a die that is rolled alone shows it. Of all pairs of words, each face comes
from as many as go into their number, rounded down or up; no rounding is needed if the number of
sides is a power of two. -/
theorem draw_fair {sides : UInt32} (hpos : 0 < sides.toNat) :
    (∀ (G : Type) [WordSource G] (source : G),
      let first := WordSource.next source
      let second := WordSource.next first.2
      let f := 1 + sides.toNat * (first.1.toNat * wordCount + second.1.toNat) /
        (wordCount * wordCount)
      ((draw sides.toNat).run source).1 = f ∧ 1 ≤ f ∧ f ≤ sides.toNat ∧
      ∃ total left, exec (Expression.roll ⟨1, sides, 0⟩) source = (.ok total, left) ∧
        total.toInt = f) ∧
    ∀ f, 1 ≤ f → f ≤ sides.toNat →
      ((facePairs sides.toNat f).ncard = wordCount * wordCount / sides.toNat ∨
        (facePairs sides.toNat f).ncard = wordCount * wordCount ⌈/⌉ sides.toNat) ∧
      (sides.toNat.isPowerOfTwo →
        (facePairs sides.toNat f).ncard = wordCount * wordCount / sides.toNat) := by
  have hle : sides.toNat ≤ wordCount := Nat.le_of_lt sides.toNat_lt
  refine ⟨fun G _ source => ?_, fun f hf hsides => ?_⟩
  · obtain ⟨total, hexec, htotal⟩ := exists_exec_roll_die hpos source
    have hdraw := draw_eq_face hpos hle source
    refine ⟨hdraw, face_pos _ _ _, face_le hpos _ _, total, _, hexec, ?_⟩
    rw [htotal, hdraw]
    rfl
  · obtain ⟨k, rfl⟩ := Nat.exists_eq_add_of_le hf
    have hk : k < sides.toNat := by omega
    rw [ncard_facePairs hpos hle]
    exact ⟨card_scaledTo_eq_or hk _,
      fun hpower =>
        card_scaledTo_of_dvd hk ((dvd_wordCount_of_isPowerOfTwo hle hpower).mul_right _)⟩

/-- Six sides do not go into the number of pairs, eight do. -/
theorem draw_fair_six_eight :
    (0 < (6 : UInt32).toNat ∧ ((facePairs 6 3).ncard = 3074457345618258602 ∨
      (facePairs 6 3).ncard = 3074457345618258603)) ∧
    0 < (8 : UInt32).toNat ∧ (8 : Nat).isPowerOfTwo ∧ (facePairs 8 3).ncard = 2305843009213693952 := by
  have hpower : (8 : Nat).isPowerOfTwo := ⟨3, rfl⟩
  refine ⟨⟨by decide, ?_⟩, by decide, hpower, ?_⟩
  · exact ((@draw_fair 6 (by decide)).2 3 (by decide) (by decide)).1
  · exact ((@draw_fair 8 (by decide)).2 3 (by decide) (by decide)).2 hpower

end ChatDice
