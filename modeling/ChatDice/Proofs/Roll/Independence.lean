/-
The dice of one roll are independent.

A draw takes one word or two, so the place in the stream where a die is drawn from depends on all
dice before it. The faces are distributed as if it did not. Count the lists of words on which the
dice show given faces, among all lists that are long enough for every draw to take two words: the
number is the product of the numbers of pairs of words that the single faces are drawn from.

* **`Queued`** — a source that yields the words of a list first;
* **`ncard_facePairs_eq_add`** — the pairs of words that a face is drawn from, by whether the second
  word is taken;
* **`ncard_wordLists`** — the number of lists of words on which dice show given faces, where words
  may be left over: every word that no draw takes multiplies the number by that of all words;
* **`exec_rollDice_of_sum_le`**, **`exec_rollDice_of_lt_sum`** — the loop over the dice adds up what is
  drawn, as long as the sum fits;
* **`rollDice_independent`** — the faces drawn by the loop.
-/
import Mathlib.Data.FinEnum
import Mathlib.Data.Fintype.BigOperators
import Mathlib.Data.Set.Finite.List
import ChatDice.Proofs.Roll.Fairness

namespace ChatDice

open RollM

/-- A source behind a list of words that are yielded first. -/
structure Queued (G : Type) where
  words : List UInt32
  behind : G

variable {G : Type} [WordSource G]

instance : WordSource (Queued G) where
  next source :=
    match source.words with
    | [] => ((WordSource.next source.behind).1, ⟨[], (WordSource.next source.behind).2⟩)
    | word :: words => (word, ⟨words, source.behind⟩)

theorem run_draw_of_decided {sides : Nat} {first : UInt32} (h : isUndecided sides first = false)
    (words : List UInt32) (behind : G) :
    (draw sides).run (⟨first :: words, behind⟩ : Queued G) =
      (1 + highPart sides first, ⟨words, behind⟩) := by
  rw [run_draw]
  show ite (isUndecided sides first = true) _ _ = _
  rw [h, if_neg Bool.false_ne_true]

theorem run_draw_of_undecided {sides : Nat} {first : UInt32} (h : isUndecided sides first = true)
    (second : UInt32) (words : List UInt32) (behind : G) :
    (draw sides).run (⟨first :: second :: words, behind⟩ : Queued G) =
      (1 + highPart sides first + carry sides first second, ⟨words, behind⟩) := by
  rw [run_draw]
  show ite (isUndecided sides first = true) _ _ = _
  rw [if_pos h]
  rfl

/-! ### Pairs of words, by how many are taken -/

/-- The words that alone decide on a face. -/
def decidingWords (sides f : Nat) : Set UInt32 :=
  {word | isUndecided sides word = false ∧ 1 + highPart sides word = f}

/-- The pairs of words that are both taken for a face. -/
def decidingPairs (sides f : Nat) : Set (UInt32 × UInt32) :=
  {words | isUndecided sides words.1 = true ∧
    1 + highPart sides words.1 + carry sides words.1 words.2 = f}

theorem card_words : Nat.card UInt32 = wordCount := by
  have hbijective : Function.Bijective UInt32.toFin :=
    ⟨fun _ _ h => UInt32.toFin_inj.mp h, fun n => ⟨UInt32.ofFin n, rfl⟩⟩
  rw [Nat.card_eq_of_bijective UInt32.toFin hbijective]
  exact Nat.card_fin _

theorem facePairs_eq_union {sides : Nat} (hpos : 0 < sides) (hle : sides ≤ wordCount) (f : Nat) :
    facePairs sides f = decidingPairs sides f ∪ decidingWords sides f ×ˢ Set.univ := by
  ext ⟨first, second⟩
  have hface : (first, second) ∈ facePairs sides f ↔
      1 + highPart sides first + carry sides first second = f := by
    rw [one_add_highPart_add_carry hpos hle, ← draw_pair hpos hle]
    rfl
  rw [hface]
  cases h : isUndecided sides first with
  | true => simp [decidingPairs, decidingWords, h]
  | false =>
    -- whatever the second word is, it would not change the face
    simp [decidingPairs, decidingWords, h, carry_eq_zero hpos hle h second]

theorem ncard_facePairs_eq_add {sides : Nat} (hpos : 0 < sides) (hle : sides ≤ wordCount)
    (f : Nat) :
    (facePairs sides f).ncard =
      (decidingPairs sides f).ncard + (decidingWords sides f).ncard * wordCount := by
  have hdisjoint : Disjoint (decidingPairs sides f) (decidingWords sides f ×ˢ Set.univ) := by
    rw [Set.disjoint_left]
    rintro words ⟨hpair, _⟩ ⟨⟨hword, _⟩, _⟩
    rw [hpair] at hword
    exact Bool.noConfusion hword
  rw [facePairs_eq_union hpos hle, Set.ncard_union_eq hdisjoint, Set.ncard_prod, Set.ncard_univ,
    card_words]

/-! ### Lists of words -/

/-- The lists of words on which dice show given faces: two words for each die, and `spare` more. -/
def wordLists (sides : Nat) (faces : List Nat) (spare : Nat) (behind : G) : Set (List UInt32) :=
  {words | words.length = 2 * faces.length + spare ∧
    (drawFaces (List.replicate faces.length sides) (⟨words, behind⟩ : Queued G)).1 = faces}

theorem ncard_length_eq (n : Nat) :
    {words : List UInt32 | words.length = n}.ncard = wordCount ^ n := by
  have hvector := card_vector (α := UInt32) n
  rw [← Nat.card_eq_fintype_card, ← Nat.card_eq_fintype_card, card_words] at hvector
  exact hvector

theorem finite_wordLists (sides : Nat) (faces : List Nat) (spare : Nat) (behind : G) :
    (wordLists sides faces spare behind).Finite :=
  (List.finite_length_eq UInt32 _).subset fun _ h => h.1

theorem cons_mem_wordLists {sides : Nat} {first : UInt32} (h : isUndecided sides first = false)
    {words : List UInt32} {f : Nat} {faces : List Nat} {spare : Nat} {behind : G} :
    first :: words ∈ wordLists sides (f :: faces) spare behind ↔
      first ∈ decidingWords sides f ∧ words ∈ wordLists sides faces (spare + 1) behind := by
  have hlength : (first :: words).length = 2 * (f :: faces).length + spare ↔
      words.length = 2 * faces.length + (spare + 1) := by
    rw [List.length_cons, List.length_cons]
    omega
  simp only [wordLists, decidingWords, Set.mem_ofPred_eq, hlength]
  rw [List.length_cons, List.replicate_succ, drawFaces_cons, run_draw_of_decided h, List.cons.injEq]
  tauto

theorem cons_cons_mem_wordLists {sides : Nat} {first : UInt32}
    (h : isUndecided sides first = true) {second : UInt32} {words : List UInt32} {f : Nat}
    {faces : List Nat} {spare : Nat} {behind : G} :
    first :: second :: words ∈ wordLists sides (f :: faces) spare behind ↔
      (first, second) ∈ decidingPairs sides f ∧ words ∈ wordLists sides faces spare behind := by
  have hlength : (first :: second :: words).length = 2 * (f :: faces).length + spare ↔
      words.length = 2 * faces.length + spare := by
    rw [List.length_cons, List.length_cons, List.length_cons]
    omega
  simp only [wordLists, decidingPairs, Set.mem_ofPred_eq, hlength]
  rw [List.length_cons, List.replicate_succ, drawFaces_cons, run_draw_of_undecided h,
    List.cons.injEq]
  tauto

/-- The first die is drawn from one word or from two. If it is drawn from one, a word more is left
for the other dice than they can take. -/
theorem wordLists_cons (sides f : Nat) (faces : List Nat) (spare : Nat) (behind : G) :
    wordLists sides (f :: faces) spare behind =
      (fun taken : (UInt32 × UInt32) × List UInt32 => taken.1.1 :: taken.1.2 :: taken.2) ''
          (decidingPairs sides f ×ˢ wordLists sides faces spare behind) ∪
        (fun taken : UInt32 × List UInt32 => taken.1 :: taken.2) ''
          (decidingWords sides f ×ˢ wordLists sides faces (spare + 1) behind) := by
  ext words
  constructor
  · intro h
    match words, h with
    | first :: second :: words, h =>
      cases hfirst : isUndecided sides first with
      | true =>
        have hmem := (cons_cons_mem_wordLists hfirst).mp h
        exact .inl ⟨((first, second), words), hmem, rfl⟩
      | false =>
        have hmem := (cons_mem_wordLists hfirst).mp h
        exact .inr ⟨(first, second :: words), hmem, rfl⟩
    | [_], h | [], h =>
      -- two words for the first die alone would be more than these
      have hlength := h.1
      simp only [List.length_cons, List.length_nil] at hlength
      omega
  · rintro (⟨⟨⟨first, second⟩, words⟩, h, rfl⟩ | ⟨⟨first, words⟩, h, rfl⟩)
    · exact (cons_cons_mem_wordLists h.1.1).mpr h
    · exact (cons_mem_wordLists h.1.1).mpr h

theorem ncard_wordLists_cons (sides f : Nat) (faces : List Nat) (spare : Nat) (behind : G) :
    (wordLists sides (f :: faces) spare behind).ncard =
      (decidingPairs sides f).ncard * (wordLists sides faces spare behind).ncard +
        (decidingWords sides f).ncard * (wordLists sides faces (spare + 1) behind).ncard := by
  have hpairs : Function.Injective
      fun taken : (UInt32 × UInt32) × List UInt32 => taken.1.1 :: taken.1.2 :: taken.2 := by
    rintro ⟨⟨_, _⟩, _⟩ ⟨⟨_, _⟩, _⟩ h
    simpa [and_assoc] using h
  have hwords : Function.Injective
      fun taken : UInt32 × List UInt32 => taken.1 :: taken.2 := by
    rintro ⟨_, _⟩ ⟨_, _⟩ h
    simpa using h
  have hfinitePairs := (Set.toFinite (decidingPairs sides f)).prod
    (finite_wordLists sides faces spare behind)
  have hfiniteWords := (Set.toFinite (decidingWords sides f)).prod
    (finite_wordLists sides faces (spare + 1) behind)
  rw [wordLists_cons, Set.ncard_union_eq ?_ (hfinitePairs.image _) (hfiniteWords.image _),
    Set.ncard_image_of_injective _ hpairs, Set.ncard_image_of_injective _ hwords, Set.ncard_prod,
    Set.ncard_prod]
  rw [Set.disjoint_left]
  rintro _ ⟨⟨⟨first, second⟩, words⟩, hpair, rfl⟩ ⟨⟨first', words'⟩, hword, heq⟩
  obtain ⟨rfl, _⟩ := List.cons.inj heq
  exact Bool.noConfusion (hpair.1.1.symm.trans hword.1.1)

/-- Each face contributes the number of its pairs of words, and each spare word that of all words. -/
theorem ncard_wordLists {sides : Nat} (hpos : 0 < sides) (hle : sides ≤ wordCount)
    (faces : List Nat) (spare : Nat) (behind : G) :
    (wordLists sides faces spare behind).ncard =
      wordCount ^ spare * (faces.map fun f => (facePairs sides f).ncard).prod := by
  induction faces generalizing spare with
  | nil =>
    have hall : wordLists sides [] spare behind = {words | words.length = spare} := by
      ext words
      simp [wordLists]
    rw [hall, ncard_length_eq, List.map_nil, List.prod_nil, Nat.mul_one]
  | cons f faces ih =>
    rw [ncard_wordLists_cons, ih, ih, List.map_cons, List.prod_cons,
      ncard_facePairs_eq_add hpos hle, Nat.pow_succ]
    ring

/-! ### The loop over the dice -/

theorem exec_rollDice_of_sum_le {sides count sum : Nat} {source : G}
    (h : sum + (drawFaces (List.replicate count sides) source).1.sum ≤ greatestInt64) :
    exec (rollDice sides count sum) source =
      (.ok (sum + (drawFaces (List.replicate count sides) source).1.sum),
        (drawFaces (List.replicate count sides) source).2) := by
  induction count generalizing sum source with
  | zero => rfl
  | succ count ih =>
    rw [List.replicate_succ, drawFaces_cons, List.sum_cons, ← Nat.add_assoc] at h ⊢
    have hfits : sum + ((draw sides).run source).1 ≤ greatestInt64 :=
      Nat.le_trans (Nat.le_add_right _ _) h
    rw [rollDice, exec_bind, exec_lift]
    dsimp only
    rw [if_pos hfits, ih h]

theorem exec_rollDice_of_lt_sum {sides count sum : Nat} {source : G} (hsum : sum ≤ greatestInt64)
    (h : greatestInt64 < sum + (drawFaces (List.replicate count sides) source).1.sum) :
    (exec (rollDice sides count sum) source).1 = .error .sumOverflow := by
  induction count generalizing sum source with
  | zero => exact absurd h (Nat.not_lt.mpr hsum)
  | succ count ih =>
    rw [List.replicate_succ, drawFaces_cons, List.sum_cons, ← Nat.add_assoc] at h
    rw [rollDice, exec_bind, exec_lift]
    dsimp only
    by_cases hfits : sum + ((draw sides).run source).1 ≤ greatestInt64
    · rw [if_pos hfits]
      exact ih hfits h
    · rw [if_neg hfits, exec_throw]

/-- Of the lists with two words for each die, those on which the loop over the dice draws given
faces in order are as many as the numbers for the single faces multiplied, where the number for a
face is that of the numbers below `wordCount * wordCount` which are scaled down to it. What the source
yields behind the words does not matter. The loop adds up the faces that are drawn one after another,
and only if their sum does not fit it stops with a fault. -/
theorem rollDice_independent {sides : UInt32} (hpos : 0 < sides.toNat) {faces : List Nat}
    (hfaces : ∀ f ∈ faces, 1 ≤ f ∧ f ≤ sides.toNat) (behind : G) :
    let drawn (words : List UInt32) : List Nat × Queued G :=
      drawFaces (List.replicate faces.length sides.toNat) ⟨words, behind⟩
    (∀ words : List UInt32,
      ((drawn words).1.sum ≤ greatestInt64 →
        exec (rollDice sides.toNat faces.length 0) (⟨words, behind⟩ : Queued G) =
          (.ok (drawn words).1.sum, (drawn words).2)) ∧
      (greatestInt64 < (drawn words).1.sum →
        (exec (rollDice sides.toNat faces.length 0) (⟨words, behind⟩ : Queued G)).1 =
          .error .sumOverflow)) ∧
    {words : List UInt32 | words.length = 2 * faces.length}.ncard =
      (wordCount * wordCount) ^ faces.length ∧
    {words : List UInt32 | words.length = 2 * faces.length ∧ (drawn words).1 = faces}.ncard =
      (faces.map fun f => (scaledTo sides.toNat (wordCount * wordCount) (f - 1)).card).prod := by
  have hle : sides.toNat ≤ wordCount := Nat.le_of_lt sides.toNat_lt
  refine ⟨fun words => ⟨fun h => ?_, fun h => ?_⟩, ?_, ?_⟩
  · rw [← Nat.zero_add (List.sum _)] at h ⊢
    exact exec_rollDice_of_sum_le h
  · rw [← Nat.zero_add (List.sum _)] at h
    exact exec_rollDice_of_lt_sum (Nat.zero_le _) h
  · rw [ncard_length_eq, Nat.pow_mul, Nat.pow_two]
  · have hcount := ncard_wordLists hpos hle faces 0 behind
    rw [Nat.pow_zero, Nat.one_mul] at hcount
    refine hcount.trans (congrArg List.prod (List.map_congr_left fun f hf => ?_))
    obtain ⟨k, rfl⟩ := Nat.exists_eq_add_of_le (hfaces f hf).1
    rw [ncard_facePairs hpos hle, Nat.add_sub_cancel_left]

/-- A three and a one with dice of six sides, for which the numbers differ. -/
theorem rollDice_independent_two_dice :
    let source : Script := ⟨#[0x55555555], by decide, 0⟩
    (0 < (6 : UInt32).toNat ∧ ∀ f ∈ [3, 1], 1 ≤ f ∧ f ≤ (6 : UInt32).toNat) ∧
    {words : List UInt32 | words.length = 4 ∧
        (drawFaces [6, 6] (⟨words, source⟩ : Queued Script)).1 = [3, 1]}.ncard =
      3074457345618258602 * 3074457345618258603 := by
  intro source
  have hfaces : ∀ f ∈ [3, 1], 1 ≤ f ∧ f ≤ (6 : UInt32).toNat := by decide
  have hthree : (scaledTo (6 : UInt32).toNat (wordCount * wordCount) (3 - 1)).card =
      3074457345618258602 := by
    rw [scaledTo_eq_Ico (by decide), Nat.card_Ico]
    decide +kernel
  have hone : (scaledTo (6 : UInt32).toNat (wordCount * wordCount) (1 - 1)).card =
      3074457345618258603 := by
    rw [scaledTo_eq_Ico (by decide), Nat.card_Ico]
    decide +kernel
  refine ⟨⟨by decide, hfaces⟩, ?_⟩
  rw [← hthree, ← hone, ← List.prod_pair]
  exact (@rollDice_independent _ _ 6 (by decide) _ hfaces source).2.2

end ChatDice
