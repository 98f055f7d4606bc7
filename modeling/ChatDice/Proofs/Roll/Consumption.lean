/-
How many words a roll takes.

A die takes one word or two, and which of the two depends on the word. What can be said for all
sources are bounds:

* **`Takes`** — the number of words that a computation takes, measured on a source which counts them
  and is the same otherwise;
* **`TakesBetween`** — bounds for all sources; `TakesBetween.bind` and its like add them up along a
  computation;
* **`isUndecided_eq_false`** — what a word leaves over is a multiple of any number of sides that
  divides the number of words, so no die with such a number of sides takes a second word;
* **`takesBetween_rollDice`**, **`Expression.takesBetween_rollRepeatedly`** — the loops over the dice
  and over the rolls of a set;
* **`Expression.takes_rollRepeatedly`** — the sum over the rolls of a set;
* **`Expression.fault_of_exec_roll`**, **`Expression.takes_roll_of_isPowerOfTwo`** — when a roll can
  take fewer words than it has dice, and when it takes exactly as many;
* **`Expression.consumption_of_fits`** — the bounds where no sum of the dice can overflow;
* **`roll_consumption`** — the words that an expression, a set and a text take.
-/
import Mathlib.Algebra.BigOperators.Intervals
import ChatDice.Proofs.Roll.Independence

namespace ChatDice

open RollM

/-! ### Counting words -/

/-- A source that counts the words taken from it. -/
structure Metered (G : Type) where
  source : G
  taken : Nat

instance {G : Type} [WordSource G] : WordSource (Metered G) where
  next m := ((WordSource.next m.source).1, ⟨(WordSource.next m.source).2, m.taken + 1⟩)

/-- A computation that draws its words from any source it is given. -/
abbrev Drawing (α : Type) := (G : Type) → [WordSource G] → RollM G α

variable {G α β : Type} [WordSource G]

/-- A computation takes `n` words from a source: if they are counted, it does what it does anyway,
and the count goes up by `n`. -/
def Takes (action : Drawing α) (source : G) (n : Nat) : Prop :=
  ∀ taken, exec (action (Metered G)) ⟨source, taken⟩ =
    ((exec (action G) source).1, ⟨(exec (action G) source).2, taken + n⟩)

theorem Takes.eq_taken {action : Drawing α} {source : G} {n : Nat} (h : Takes action source n) :
    n = (exec (action (Metered G)) ⟨source, 0⟩).2.taken := by
  rw [h 0, Nat.zero_add]

theorem Takes.unique {action : Drawing α} {source : G} {n m : Nat} (hn : Takes action source n)
    (hm : Takes action source m) : n = m :=
  hn.eq_taken.trans hm.eq_taken.symm

theorem takes_pure (a : α) (source : G) : Takes (fun _ => pure a) source 0 := fun _ => rfl

theorem takes_throw (f : Fault) (source : G) :
    Takes (fun G [WordSource G] => (throw f : RollM G α)) source 0 := fun _ => rfl

theorem Takes.bind {action : Drawing α} {next : α → Drawing β} {source left : G} {a : α} {n m : Nat}
    (h : Takes action source n) (hexec : exec (action G) source = (.ok a, left))
    (hnext : Takes (next a) left m) :
    Takes (fun G => action G >>= fun a => next a G) source (n + m) := by
  intro taken
  rw [exec_bind, exec_bind, h taken, hexec]
  dsimp only
  rw [hnext (taken + n), Nat.add_assoc]

/-- After a fault, no more words are taken. -/
theorem Takes.bind_of_fault {action : Drawing α} (next : α → Drawing β) {source left : G}
    {f : Fault} {n : Nat} (h : Takes action source n) (hexec : exec (action G) source = (.error f, left)) :
    Takes (fun G => action G >>= fun a => next a G) source n := by
  intro taken
  rw [exec_bind, exec_bind, h taken, hexec]

theorem Takes.bind_pure {action : Drawing α} {source : G} {n : Nat} (h : Takes action source n)
    (f : α → β) : Takes (fun G => action G >>= fun a => pure (f a)) source n := by
  intro taken
  rw [exec_bind_pure, exec_bind_pure, h taken]

/-! ### Bounds for all sources -/

/-- From every source, a computation takes at most `high` words, and at least `low` if it does not
end in a fault. -/
def TakesBetween (action : Drawing α) (low high : Nat) : Prop :=
  ∀ (G : Type) [WordSource G] (source : G), ∃ n, Takes action source n ∧ n ≤ high ∧
    ∀ a, (exec (action G) source).1 = .ok a → low ≤ n

theorem TakesBetween.mono {action : Drawing α} {low low' high high' : Nat}
    (h : TakesBetween action low high) (hlow : low' ≤ low) (hhigh : high ≤ high') :
    TakesBetween action low' high' := by
  intro G _ source
  obtain ⟨n, hn, hmost, hleast⟩ := h G source
  exact ⟨n, hn, Nat.le_trans hmost hhigh, fun a ha => Nat.le_trans hlow (hleast a ha)⟩

/-- A computation that gives a result takes a number of words between the bounds. -/
theorem TakesBetween.exists_takes {action : Drawing α} {low high : Nat}
    (h : TakesBetween action low high) {source : G} {a : α}
    (hexec : (exec (action G) source).1 = .ok a) :
    ∃ n, Takes action source n ∧ low ≤ n ∧ n ≤ high := by
  obtain ⟨n, hn, hmost, hleast⟩ := h G source
  exact ⟨n, hn, hleast a hexec, hmost⟩

theorem takesBetween_pure (a : α) : TakesBetween (fun _ => pure a) 0 0 :=
  fun _ _ source => ⟨0, takes_pure a source, Nat.le_refl 0, fun _ _ => Nat.le_refl 0⟩

theorem takesBetween_throw (f : Fault) (low : Nat) :
    TakesBetween (fun G [WordSource G] => (throw f : RollM G α)) low 0 :=
  fun _ _ source => ⟨0, takes_throw f source, Nat.le_refl 0, nofun⟩

theorem TakesBetween.bind {action : Drawing α} {next : α → Drawing β} {low low' high high' : Nat}
    (h : TakesBetween action low high) (hnext : ∀ a, TakesBetween (next a) low' high') :
    TakesBetween (fun G => action G >>= fun a => next a G) (low + low') (high + high') := by
  intro G _ source
  obtain ⟨n, hn, hmost, hleast⟩ := h G source
  cases hexec : exec (action G) source with
  | mk outcome left =>
    cases outcome with
    | ok a =>
      obtain ⟨m, hm, hmost', hleast'⟩ := hnext a G left
      refine ⟨n + m, hn.bind hexec hm, Nat.add_le_add hmost hmost', fun b hb => ?_⟩
      rw [exec_bind, hexec] at hb
      exact Nat.add_le_add (hleast a (congrArg Prod.fst hexec)) (hleast' b hb)
    | error f =>
      refine ⟨n, hn.bind_of_fault next hexec, Nat.le_add_right_of_le hmost, fun b hb => ?_⟩
      rw [exec_bind, hexec] at hb
      cases hb

/-! ### One die -/

theorem takes_draw (sides : Nat) (source : G) :
    Takes (fun _ => ExceptT.lift (draw sides)) source
      (if isUndecided sides (WordSource.next source).1 then 2 else 1) := by
  intro taken
  rw [exec_lift, exec_lift, run_draw, run_draw]
  dsimp only [WordSource.next]
  split <;> rfl

theorem takesBetween_draw (sides : Nat) :
    TakesBetween (fun _ => ExceptT.lift (draw sides)) 1 2 := by
  intro G _ source
  refine ⟨_, takes_draw sides source, ?_⟩
  split <;> simp

/-- What a word leaves over is a multiple of the number of sides if that divides the number of
words. -/
theorem isUndecided_eq_false {sides : Nat} (h : sides ∣ wordCount) (word : UInt32) :
    isUndecided sides word = false := by
  have hword : 0 < wordCount := by decide
  have hdvd : sides ∣ lowPart sides word :=
    (Nat.dvd_mod_iff h).mpr (Nat.dvd_mul_left sides word.toNat)
  have hlow : lowPart sides word < wordCount := Nat.mod_lt _ hword
  -- of two multiples, the smaller one is smaller by `sides` at least
  have hgap : sides ≤ wordCount - lowPart sides word :=
    Nat.le_of_dvd (Nat.sub_pos_of_lt hlow) (Nat.dvd_sub h hdvd)
  rw [isUndecided, decide_eq_false_iff_not]
  omega

theorem takesBetween_draw_of_dvd {sides : Nat} (h : sides ∣ wordCount) :
    TakesBetween (fun _ => ExceptT.lift (draw sides)) 1 1 := by
  intro G _ source
  refine ⟨_, takes_draw sides source, ?_⟩
  rw [isUndecided_eq_false h]
  simp

/-! ### Rolls -/

theorem takesBetween_rollDice {sides high : Nat}
    (hdraw : TakesBetween (fun _ => ExceptT.lift (draw sides)) 1 high) (count sum : Nat) :
    TakesBetween (fun _ => rollDice sides count sum) count (count * high) := by
  induction count generalizing sum with
  | zero =>
    rw [Nat.zero_mul]
    exact takesBetween_pure sum
  | succ count ih =>
    have hnext (face : Nat) : TakesBetween
        (fun _ => if sum + face ≤ greatestInt64 then rollDice sides count (sum + face)
          else throw .sumOverflow) count (count * high) := by
      by_cases hfits : sum + face ≤ greatestInt64
      · simp only [if_pos hfits]
        exact ih (sum + face)
      · simp only [if_neg hfits]
        exact (takesBetween_throw .sumOverflow count).mono (Nat.le_refl _) (Nat.zero_le _)
    refine (hdraw.bind hnext).mono ?_ ?_
    · exact Nat.le_of_eq (Nat.add_comm count 1)
    · rw [Nat.succ_mul, Nat.add_comm]

namespace Expression

theorem takesBetween_roll {e : Expression} (hsides : 0 < e.sides.toNat) {high : Nat}
    (hdraw : TakesBetween (fun _ => ExceptT.lift (draw e.sides.toNat)) 1 high) :
    TakesBetween (fun _ => e.roll) e.count.toNat (e.count.toNat * high) := by
  simp only [roll, if_neg (Nat.ne_of_gt hsides)]
  exact (takesBetween_rollDice hdraw e.count.toNat 0).bind fun sum =>
    takesBetween_pure (addModifier sum e.modifier)

theorem takesBetween_rollRepeatedly {e : Expression} {low high : Nat}
    (hroll : TakesBetween (fun _ => e.roll) low high) (count : Nat) :
    TakesBetween (fun _ => e.rollRepeatedly count) (count * low) (count * high) := by
  induction count with
  | zero =>
    rw [Nat.zero_mul, Nat.zero_mul]
    exact takesBetween_pure []
  | succ count ih =>
    rw [Nat.succ_mul, Nat.succ_mul, Nat.add_comm _ low, Nat.add_comm _ high]
    exact hroll.bind fun total => ih.bind fun totals => takesBetween_pure (total :: totals)

theorem exec_rollRepeatedly_succ {e : Expression} {source left : G} {total : Int64}
    (h : exec e.roll source = (.ok total, left)) (count : Nat) :
    exec (e.rollRepeatedly (count + 1)) source =
      ((exec (e.rollRepeatedly count) left).1.map (total :: ·),
        (exec (e.rollRepeatedly count) left).2) := by
  rw [rollRepeatedly, exec_bind, h]
  exact exec_bind_pure _ _ left

/-- Rolls one after another take the words that each of them takes from where it starts. -/
theorem takes_rollRepeatedly {e : Expression} {count : Nat} {source : G} {totals : List Int64}
    (h : (exec (e.rollRepeatedly count) source).1 = .ok totals) {taken : Nat → Nat}
    (htaken : ∀ i < count,
      Takes (fun _ => e.roll) (exec (e.rollRepeatedly i) source).2 (taken i)) :
    Takes (fun _ => e.rollRepeatedly count) source (∑ i ∈ Finset.range count, taken i) := by
  induction count generalizing source totals taken with
  | zero => exact takes_pure [] source
  | succ count ih =>
    cases hexec : exec e.roll source with
    | mk outcome left =>
      cases outcome with
      | error f =>
        rw [rollRepeatedly, exec_bind, hexec] at h
        cases h
      | ok total =>
        rw [exec_rollRepeatedly_succ hexec] at h
        obtain ⟨_, hothers, -⟩ := map_eq_ok_iff.mp h
        have hfirst : Takes (fun _ => e.roll) source (taken 0) := htaken 0 (Nat.succ_pos count)
        have hlater : Takes (fun _ => e.rollRepeatedly count) left
            (∑ i ∈ Finset.range count, taken (i + 1)) := by
          refine ih hothers fun i hi => ?_
          have hshift := htaken (i + 1) (Nat.succ_lt_succ hi)
          rwa [exec_rollRepeatedly_succ hexec] at hshift
        rw [Finset.sum_range_succ', Nat.add_comm _ (taken 0)]
        refine hfirst.bind hexec ?_
        exact hlater.bind_pure (total :: ·)

/-! ### Faults -/

theorem fault_of_exec_roll {e : Expression} (hsides : 0 < e.sides.toNat) {source : G} {f : Fault}
    (h : (exec e.roll source).1 = .error f) :
    f = .sumOverflow ∧ greatestInt64 < e.count.toNat * e.sides.toNat := by
  refine ⟨?_, Nat.lt_of_not_le fun hfits => ?_⟩
  · rw [roll, if_neg (Nat.ne_of_gt hsides), exec_bind_pure] at h
    rcases Nat.lt_or_ge greatestInt64
        (0 + (drawFaces (List.replicate e.count.toNat e.sides.toNat) source).1.sum) with hsum | hsum
    · rw [exec_rollDice_of_lt_sum (Nat.zero_le _) hsum] at h
      exact (Except.error.inj h).symm
    · rw [exec_rollDice_of_sum_le hsum] at h
      cases h
  · obtain ⟨total, htotal, -⟩ := yields_roll ⟨hsides, hfits⟩ source
    rw [htotal] at h
    cases h

theorem fault_of_exec_rollRepeatedly {e : Expression} (hsides : 0 < e.sides.toNat) {count : Nat}
    {source : G} {f : Fault} (h : (exec (e.rollRepeatedly count) source).1 = .error f) :
    f = .sumOverflow ∧ greatestInt64 < e.count.toNat * e.sides.toNat := by
  induction count generalizing source with
  | zero => cases h
  | succ count ih =>
    cases hexec : exec e.roll source with
    | mk outcome left =>
      cases outcome with
      | error g =>
        rw [rollRepeatedly, exec_bind, hexec] at h
        cases h
        exact fault_of_exec_roll hsides (congrArg Prod.fst hexec)
      | ok total =>
        rw [exec_rollRepeatedly_succ hexec] at h
        exact ih (map_eq_error_iff.mp h)

/-- With a power of two for its sides, the largest sum of any number of dice fits. -/
theorem fits_of_isPowerOfTwo {e : Expression} (h : e.sides.toNat.isPowerOfTwo) : e.Fits := by
  have hcount : e.count.toNat < 2 ^ 32 := e.count.toNat_lt
  have hsides : e.sides.toNat < 2 ^ 32 := e.sides.toNat_lt
  obtain ⟨k, hk⟩ := h
  rw [hk] at hsides
  have hlast : 2 ^ k ≤ 2 ^ 31 :=
    Nat.pow_le_pow_right (by decide)
      (Nat.le_of_lt_succ ((Nat.pow_lt_pow_iff_right (by decide)).mp hsides))
  refine ⟨hk ▸ Nat.two_pow_pos k, ?_⟩
  calc e.count.toNat * e.sides.toNat
      ≤ (2 ^ 32 - 1) * 2 ^ 31 := Nat.mul_le_mul (Nat.le_sub_one_of_lt hcount) (hk ▸ hlast)
    _ ≤ greatestInt64 := by decide

theorem takes_roll_of_isPowerOfTwo {e : Expression} (h : e.sides.toNat.isPowerOfTwo) (source : G) :
    Takes (fun _ => e.roll) source e.count.toNat := by
  have hfits := fits_of_isPowerOfTwo h
  have hdvd := dvd_wordCount_of_isPowerOfTwo (Nat.le_of_lt e.sides.toNat_lt) h
  obtain ⟨total, htotal, -⟩ := yields_roll hfits source
  obtain ⟨n, hn, hleast, hmost⟩ :=
    (takesBetween_roll hfits.sides_pos (takesBetween_draw_of_dvd hdvd)).exists_takes htotal
  rw [Nat.mul_one] at hmost
  have heq : n = e.count.toNat := Nat.le_antisymm hmost hleast
  exact heq ▸ hn

/-- If no sum of the dice can overflow, a roll takes one word or two for each die, and so does a
set of such rolls. -/
theorem consumption_of_fits {e : Expression} (h : e.Fits) (source : G) :
    (∃ n, Takes (fun _ => e.roll) source n ∧ e.count.toNat ≤ n ∧ n ≤ 2 * e.count.toNat) ∧
    ∀ repeats : UInt32, ∃ n, Takes (fun _ => RollSet.roll ⟨repeats, e⟩) source n ∧
      repeats.toNat * e.count.toNat ≤ n ∧ n ≤ 2 * (repeats.toNat * e.count.toNat) := by
  have hroll := takesBetween_roll h.sides_pos (takesBetween_draw e.sides.toNat)
  refine ⟨?_, fun repeats => ?_⟩
  · obtain ⟨total, htotal, -⟩ := yields_roll h source
    obtain ⟨n, hn, hleast, hmost⟩ := hroll.exists_takes htotal
    exact ⟨n, hn, hleast, by omega⟩
  · obtain ⟨totals, htotals, -⟩ := yields_rollRepeatedly h repeats.toNat source
    obtain ⟨n, hn, hleast, hmost⟩ :=
      (takesBetween_rollRepeatedly hroll repeats.toNat).exists_takes htotals
    rw [← Nat.mul_assoc, Nat.mul_comm _ 2] at hmost
    exact ⟨n, hn, hleast, hmost⟩

end Expression

/-! ### Texts -/

namespace Request

theorem takesBetween_roll {request : Request} (h : request.WithinLimits) :
    TakesBetween (fun _ => request.roll) 0 (maxRepeats * (maxDice * 2)) := by
  obtain ⟨hcount, hmin, -⟩ := Expression.violation?_eq_none_iff _ |>.mp h.expression
  have hroll := Expression.takesBetween_roll (Nat.lt_of_lt_of_le (by decide) hmin)
    (takesBetween_draw _)
  have hdice : request.expression.count.toNat * 2 ≤ maxDice * 2 := Nat.mul_le_mul_right 2 hcount
  cases request with
  | single e =>
    refine (hroll.bind fun total =>
      takesBetween_pure (Evaluation.single e total)).mono (Nat.zero_le _) ?_
    exact Nat.le_trans hdice (Nat.le_mul_of_pos_left _ (by decide))
  | repeated s =>
    refine ((Expression.takesBetween_rollRepeatedly hroll s.repeats.toNat).bind fun totals =>
      takesBetween_pure (Evaluation.repeated s totals)).mono (Nat.zero_le _) ?_
    exact Nat.mul_le_mul h.rolls_le hdice

end Request

theorem takesBetween_rollCommand (text : String) :
    TakesBetween (fun _ => rollCommand text) 0 (maxRepeats * (maxDice * 2)) := by
  cases h : Request.ofCommand text with
  | error e =>
    simp only [rollCommand, h]
    exact (takesBetween_pure (Except.error e)).mono (Nat.le_refl 0) (Nat.zero_le _)
  | ok request =>
    simp only [rollCommand, h]
    exact (Request.takesBetween_roll (Request.ofCommand_withinLimits h)).bind fun v =>
      takesBetween_pure (Except.ok v)

theorem takesBetween_rollMention (text : String) (enabled : Bool) :
    TakesBetween (fun _ => rollMention text enabled) 0 (maxRepeats * (maxDice * 2)) := by
  cases h : if enabled then Request.ofMention? text else none with
  | none =>
    simp only [rollMention, h]
    exact (takesBetween_pure none).mono (Nat.le_refl 0) (Nat.zero_le _)
  | some request =>
    have hlimits : request.WithinLimits :=
      Request.ofMention?_withinLimits (Option.ite_none_right_eq_some.mp h).2
    simp only [rollMention, h]
    exact (Request.takesBetween_roll hlimits).bind fun v => takesBetween_pure (some v)

/-- The words that are taken, whatever the source yields. A roll takes at most two for each die, and
at least one for each die unless the sum of the dice overflows: that is a fault, and it can only
happen where the highest faces add up to more than 64 signed bits hold. If the number of sides is a
power of two, it takes exactly one for each die. A set takes what its rolls take, each from where the
one before it stopped. No command and no free text takes more than two words for each die of the
largest set. -/
theorem roll_consumption {e : Expression} (hsides : 0 < e.sides.toNat) (source : G) :
    (∃ n, Takes (fun _ => e.roll) source n ∧ n ≤ 2 * e.count.toNat ∧
      (e.count.toNat ≤ n ∨
        (exec e.roll source).1 = .error .sumOverflow ∧
          greatestInt64 < e.count.toNat * e.sides.toNat) ∧
      (e.sides.toNat.isPowerOfTwo → n = e.count.toNat)) ∧
    (∀ repeats : UInt32, ∃ n, Takes (fun _ => RollSet.roll ⟨repeats, e⟩) source n ∧
      n ≤ 2 * (repeats.toNat * e.count.toNat) ∧
      ((repeats.toNat * e.count.toNat ≤ n ∧ ∃ taken : Nat → Nat,
          (∀ i < repeats.toNat,
            Takes (fun _ => e.roll) (exec (e.rollRepeatedly i) source).2 (taken i)) ∧
          n = ∑ i ∈ Finset.range repeats.toNat, taken i) ∨
        (exec (RollSet.roll ⟨repeats, e⟩) source).1 = .error .sumOverflow ∧
          greatestInt64 < e.count.toNat * e.sides.toNat)) ∧
    (∀ text, ∃ n, Takes (fun _ => rollCommand text) source n ∧ n ≤ 2 * 30 * 1000) ∧
    ∀ text enabled, ∃ n, Takes (fun _ => rollMention text enabled) source n ∧
      n ≤ 2 * 30 * 1000 := by
  have hroll := Expression.takesBetween_roll hsides (takesBetween_draw e.sides.toNat)
  have hlargest : maxRepeats * (maxDice * 2) ≤ 2 * 30 * 1000 := by decide
  refine ⟨?_, fun repeats => ?_, fun text => ?_, fun text enabled => ?_⟩
  · obtain ⟨n, hn, hmost, hleast⟩ := hroll G source
    refine ⟨n, hn, Nat.mul_comm _ 2 ▸ hmost, ?_, fun hpower => ?_⟩
    · cases h : (exec e.roll source).1 with
      | ok total => exact .inl (hleast total h)
      | error f =>
        obtain ⟨rfl, hoverflow⟩ := Expression.fault_of_exec_roll hsides h
        exact .inr ⟨rfl, hoverflow⟩
    · exact hn.unique (Expression.takes_roll_of_isPowerOfTwo hpower source)
  · obtain ⟨n, hn, hmost, hleast⟩ :=
      Expression.takesBetween_rollRepeatedly hroll repeats.toNat G source
    rw [← Nat.mul_assoc, Nat.mul_comm _ 2] at hmost
    refine ⟨n, hn, hmost, ?_⟩
    cases h : (exec (RollSet.roll ⟨repeats, e⟩) source).1 with
    | ok totals =>
      choose taken htaken using fun i : Nat => hroll G (exec (e.rollRepeatedly i) source).2
      have hsum := Expression.takes_rollRepeatedly h fun i _ => (htaken i).1
      exact .inl ⟨hleast totals h, taken, fun i _ => (htaken i).1, hn.unique hsum⟩
    | error f =>
      obtain ⟨rfl, hoverflow⟩ := Expression.fault_of_exec_rollRepeatedly hsides h
      exact .inr ⟨rfl, hoverflow⟩
  · obtain ⟨n, hn, hmost, -⟩ := takesBetween_rollCommand text G source
    exact ⟨n, hn, Nat.le_trans hmost hlargest⟩
  · obtain ⟨n, hn, hmost, -⟩ := takesBetween_rollMention text enabled G source
    exact ⟨n, hn, Nat.le_trans hmost hlargest⟩

/-- The first word leaves a die of six sides undecided, but not a die of eight. -/
theorem roll_consumption_three_dice :
    let source : Script := ⟨#[0x55555555, 0, 0], by decide, 0⟩
    (0 < (6 : UInt32).toNat ∧ Takes (fun _ => Expression.roll ⟨3, 6, 0⟩) source 5 ∧
      Takes (fun _ => RollSet.roll ⟨2, 3, 6, 0⟩) source 9) ∧
    0 < (8 : UInt32).toNat ∧ (8 : Nat).isPowerOfTwo ∧
      Takes (fun _ => Expression.roll ⟨3, 8, 0⟩) source 3 := by
  intro source
  have hpower : (8 : Nat).isPowerOfTwo := ⟨3, rfl⟩
  obtain ⟨⟨n, hn, -⟩, hset, -⟩ := @roll_consumption Script _ ⟨3, 6, 0⟩ (by decide) source
  obtain ⟨m, hm, -⟩ := hset 2
  obtain ⟨⟨k, hk, -, -, hexact⟩, -⟩ := @roll_consumption Script _ ⟨3, 8, 0⟩ (by decide) source
  have hsingle : n = 5 := hn.eq_taken.trans (by decide +kernel)
  have hrepeated : m = 9 := hm.eq_taken.trans (by decide +kernel)
  refine ⟨⟨by decide, hsingle ▸ hn, hrepeated ▸ hm⟩, by decide, hpower, ?_⟩
  rw [hexact hpower] at hk
  exact hk

end ChatDice
