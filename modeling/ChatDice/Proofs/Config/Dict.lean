/-
Dictionaries in the order of their keys.

The operations on dictionaries keep the entries in the strict order of their keys, and an entry is
found where that order puts it. So a dictionary is known by what can be looked up in it.

* **`Dict.mem_of_mem_alter?`** — what a change can bring into a dictionary;
* **`Dict.Sorted.alter`**, **`Dict.Sorted.alter?`** — a change keeps the order;
* **`Dict.Sorted.get?_alter`** — a change is seen at its own key only;
* **`Dict.alter_alter`**, **`Dict.alter_comm`** — two changes at one key make one, and changes at
  different keys may be made in either order;
* **`Dict.Sorted.ext`** — dictionaries with the same look-ups are equal.
-/
import ChatDice.Config.Dict
import Mathlib.Data.String.Basic

namespace ChatDice.Dict

variable {α : Type}

/-- The entries stand in the strict order of their keys. -/
def Sorted (d : Dict α) : Prop :=
  d.Pairwise fun e f => e.1 < f.1

instance (d : Dict α) : Decidable d.Sorted :=
  inferInstanceAs (Decidable (d.Pairwise fun e f => e.1 < f.1))

theorem sorted_cons {e : String × α} {d : Dict α} :
    Sorted (e :: d) ↔ (∀ f ∈ d, e.1 < f.1) ∧ d.Sorted :=
  List.pairwise_cons

/-! ### Looking up -/

theorem mem_of_get?_eq_some {d : Dict α} {key : String} {a : α} (h : d.get? key = some a) :
    (key, a) ∈ d := by
  induction d with
  | nil => cases h
  | cons e d ih =>
    rw [get?] at h
    split at h
    · next hkey =>
      cases h
      rw [← hkey]
      exact List.mem_cons_self
    · exact List.mem_cons_of_mem _ (ih h)

theorem get?_eq_none {d : Dict α} {key : String} (h : ∀ e ∈ d, e.1 ≠ key) : d.get? key = none := by
  cases hget : d.get? key with
  | none => rfl
  | some a => exact absurd rfl (h _ (mem_of_get?_eq_some hget))

/-- Up to its first key, a dictionary holds nothing behind the first entry. -/
theorem Sorted.get?_tail {e : String × α} {d : Dict α} (h : Sorted (e :: d)) {key : String}
    (hkey : key ≤ e.1) : d.get? key = none :=
  get?_eq_none fun f hf heq => absurd ((sorted_cons.mp h).1 f hf) (not_lt.mpr (heq ▸ hkey))

/-! ### Changes -/

/-- An entry of a changed dictionary was in it before, or it is what the change has made. -/
theorem mem_of_mem_alter? {key : String} {change : Option α → Option α} {d d' : Dict α}
    (h : d.alter? key change = some d') {e : String × α} (he : e ∈ d') :
    e ∈ d ∨ e.1 = key ∧ ∃ old?, change old? = some e.2 ∧ ∀ old ∈ old?, (key, old) ∈ d := by
  induction d generalizing d' with
  | nil =>
    obtain ⟨a, ha, rfl⟩ := Option.map_eq_some_iff.mp h
    rw [List.mem_singleton.mp he]
    exact .inr ⟨rfl, none, ha, nofun⟩
  | cons f d ih =>
    rw [alter?] at h
    split at h
    · next hkey =>
      obtain ⟨a, ha, rfl⟩ := Option.map_eq_some_iff.mp h
      rcases List.mem_cons.mp he with rfl | hlater
      · refine .inr ⟨hkey.symm, some f.2, ha, ?_⟩
        rintro _ ⟨⟩
        rw [hkey]
        exact List.mem_cons_self
      · exact .inl (List.mem_cons_of_mem _ hlater)
    · split at h
      · obtain ⟨a, ha, rfl⟩ := Option.map_eq_some_iff.mp h
        rcases List.mem_cons.mp he with rfl | hlater
        · exact .inr ⟨rfl, none, ha, nofun⟩
        · exact .inl hlater
      · obtain ⟨d'', hd'', rfl⟩ := Option.map_eq_some_iff.mp h
        rcases List.mem_cons.mp he with rfl | hlater
        · exact .inl List.mem_cons_self
        · rcases ih hd'' hlater with hold | ⟨hkey, old?, hchange, hold⟩
          · exact .inl (List.mem_cons_of_mem _ hold)
          · exact .inr ⟨hkey, old?, hchange, fun old ho => List.mem_cons_of_mem _ (hold old ho)⟩

theorem Sorted.alter? {key : String} {change : Option α → Option α} {d d' : Dict α}
    (hd : d.Sorted) (h : d.alter? key change = some d') : d'.Sorted := by
  induction d generalizing d' with
  | nil =>
    obtain ⟨a, -, rfl⟩ := Option.map_eq_some_iff.mp h
    exact List.pairwise_singleton _ _
  | cons f d ih =>
    obtain ⟨hfirst, hlater⟩ := sorted_cons.mp hd
    rw [Dict.alter?] at h
    split at h
    · obtain ⟨a, -, rfl⟩ := Option.map_eq_some_iff.mp h
      exact sorted_cons.mpr ⟨hfirst, hlater⟩
    · next hne =>
      split at h
      · next hlt =>
        obtain ⟨a, -, rfl⟩ := Option.map_eq_some_iff.mp h
        refine sorted_cons.mpr ⟨fun e he => ?_, hd⟩
        rcases List.mem_cons.mp he with rfl | he
        · exact hlt
        · exact hlt.trans (hfirst e he)
      · next hnot =>
        obtain ⟨d'', hd'', rfl⟩ := Option.map_eq_some_iff.mp h
        refine sorted_cons.mpr ⟨fun e he => ?_, ih hlater hd''⟩
        rcases mem_of_mem_alter? hd'' he with hold | ⟨hkey, -⟩
        · exact hfirst e hold
        · rw [hkey]
          exact lt_of_le_of_ne (not_lt.mp hnot) (Ne.symm hne)

/-- A change that never refuses. -/
theorem alter?_some (key : String) (change : Option α → α) (d : Dict α) :
    (d.alter? key fun old? => some (change old?)) = some (d.alter key change) := by
  induction d with
  | nil => rfl
  | cons f d ih =>
    rw [alter?, alter]
    split
    · rfl
    · split
      · rfl
      · rw [ih]
        rfl

theorem mem_of_mem_alter {key : String} {change : Option α → α} {d : Dict α} {e : String × α}
    (he : e ∈ d.alter key change) :
    e ∈ d ∨ e.1 = key ∧ ∃ old?, change old? = e.2 ∧ ∀ old ∈ old?, (key, old) ∈ d := by
  rcases mem_of_mem_alter? (alter?_some key change d) he with hold | ⟨hkey, old?, hchange, hold⟩
  · exact .inl hold
  · exact .inr ⟨hkey, old?, Option.some.inj hchange, hold⟩

theorem Sorted.alter {d : Dict α} (hd : d.Sorted) (key : String) (change : Option α → α) :
    (d.alter key change).Sorted :=
  hd.alter? (alter?_some key change d)

theorem Sorted.insert {d : Dict α} (hd : d.Sorted) (key : String) (a : α) :
    (d.insert key a).Sorted :=
  hd.alter key fun _ => a

/-- A change is seen at its own key only. -/
theorem Sorted.get?_alter {d : Dict α} (hd : d.Sorted) (key : String) (change : Option α → α)
    (k : String) :
    (d.alter key change).get? k = if k = key then some (change (d.get? key)) else d.get? k := by
  induction d with
  | nil => simp only [Dict.alter, get?, eq_comm]
  | cons f d ih =>
    rw [Dict.alter]
    split
    · next hkey =>
      subst hkey
      by_cases hk : k = f.1
      · simp only [get?, hk, if_true]
      · simp only [get?, Ne.symm hk, hk, if_false]
    · next hne =>
      split
      · next hlt =>
        have hnone : get? key (f :: d) = none :=
          get?_eq_none fun e he heq => by
            rcases List.mem_cons.mp he with rfl | he
            · exact hne heq.symm
            · exact absurd (hlt.trans ((sorted_cons.mp hd).1 e he)) (heq ▸ lt_irrefl key)
        rw [hnone, get?]
        simp only [eq_comm]
      · rw [get?, ih (sorted_cons.mp hd).2]
        by_cases hk : k = key
        · simp only [hk, get?, Ne.symm hne, if_false, if_true]
        · simp only [get?, hk, if_false]

/-! ### Changes one after another -/

theorem alter_cons_of_lt {key : String} {e : String × α} (h : key < e.1) (change : Option α → α)
    (d : Dict α) : alter key change (e :: d) = (key, change none) :: e :: d := by
  rw [alter, if_neg h.ne, if_pos h]

theorem alter_cons_self (e : String × α) (change : Option α → α) (d : Dict α) :
    alter e.1 change (e :: d) = (e.1, change (some e.2)) :: d := by
  rw [alter, if_pos rfl]

theorem alter_cons_of_gt {key : String} {e : String × α} (h : e.1 < key) (change : Option α → α)
    (d : Dict α) : alter key change (e :: d) = e :: alter key change d := by
  rw [alter, if_neg h.ne', if_neg h.not_gt]

/-- Two changes at one key make one change. -/
theorem alter_alter (key : String) (change change' : Option α → α) (d : Dict α) :
    (d.alter key change).alter key change' = d.alter key fun old? => change' (some (change old?)) := by
  induction d with
  | nil => exact alter_cons_self (key, change none) change' []
  | cons e d ih =>
    rcases lt_trichotomy key e.1 with hlt | rfl | hgt
    · rw [alter_cons_of_lt hlt, alter_cons_of_lt hlt]
      exact alter_cons_self (key, change none) change' (e :: d)
    · rw [alter_cons_self, alter_cons_self]
      exact alter_cons_self (e.1, change (some e.2)) change' d
    · rw [alter_cons_of_gt hgt, alter_cons_of_gt hgt, alter_cons_of_gt hgt, ih]

theorem alter_comm_of_lt {key key' : String} (h : key < key') (change change' : Option α → α)
    (d : Dict α) :
    (d.alter key change).alter key' change' = (d.alter key' change').alter key change := by
  have hbehind (a : α) (rest : Dict α) :
      alter key' change' ((key, a) :: rest) = (key, a) :: alter key' change' rest :=
    alter_cons_of_gt h change' rest
  have hbefore (a : α) (rest : Dict α) :
      alter key change ((key', a) :: rest) = (key, change none) :: (key', a) :: rest :=
    alter_cons_of_lt h change rest
  induction d with
  | nil => exact (hbehind _ []).trans (hbefore _ []).symm
  | cons e d ih =>
    rcases lt_trichotomy key e.1 with hlt | rfl | hgt
    · -- the first change is made in front of the other, wherever that is
      rw [alter_cons_of_lt hlt, hbehind]
      rcases lt_trichotomy key' e.1 with hlt' | rfl | hgt'
      · rw [alter_cons_of_lt hlt', hbefore]
      · rw [alter_cons_self, hbefore]
      · rw [alter_cons_of_gt hgt', alter_cons_of_lt hlt]
    · rw [alter_cons_self, alter_cons_of_gt h, hbehind, alter_cons_self]
    · rw [alter_cons_of_gt hgt, alter_cons_of_gt (hgt.trans h), alter_cons_of_gt (hgt.trans h),
        alter_cons_of_gt hgt, ih]

/-- Changes at different keys may be made in either order. -/
theorem alter_comm {key key' : String} (h : key ≠ key') (change change' : Option α → α)
    (d : Dict α) :
    (d.alter key change).alter key' change' = (d.alter key' change').alter key change := by
  rcases lt_or_gt_of_ne h with hlt | hgt
  · exact alter_comm_of_lt hlt change change' d
  · exact (alter_comm_of_lt hgt change' change d).symm

/-! ### Equality -/

/-- Dictionaries with the same look-ups are equal. -/
theorem Sorted.ext {d d' : Dict α} (hd : d.Sorted) (hd' : d'.Sorted)
    (h : ∀ key, d.get? key = d'.get? key) : d = d' := by
  induction d generalizing d' with
  | nil =>
    cases d' with
    | nil => rfl
    | cons e d' =>
      have hfirst := h e.1
      rw [get?, get?, if_pos rfl] at hfirst
      cases hfirst
  | cons e d ih =>
    cases d' with
    | nil =>
      have hfirst := h e.1
      rw [get?, get?, if_pos rfl] at hfirst
      cases hfirst
    | cons e' d' =>
      -- the smaller of the first keys would be found on one side only
      have hkey : e.1 = e'.1 := by
        rcases lt_trichotomy e.1 e'.1 with hlt | heq | hlt
        · have hfirst := h e.1
          rw [get?, if_pos rfl, get?, if_neg hlt.ne', hd'.get?_tail hlt.le] at hfirst
          cases hfirst
        · exact heq
        · have hfirst := h e'.1
          rw [get?, if_neg hlt.ne', hd.get?_tail hlt.le, get?, if_pos rfl] at hfirst
          cases hfirst
      have hvalue : e.2 = e'.2 := by
        have hfirst := h e.1
        rw [get?, if_pos rfl, get?, if_pos hkey.symm] at hfirst
        exact Option.some.inj hfirst
      have hlater : ∀ key, get? key d = get? key d' := by
        intro key
        by_cases hk : e.1 = key
        · rw [hd.get?_tail hk.ge, hd'.get?_tail (hkey ▸ hk.ge)]
        · have hget := h key
          rwa [get?, if_neg hk, get?, if_neg (hkey ▸ hk)] at hget
      rw [Prod.ext hkey hvalue, ih (sorted_cons.mp hd).2 (sorted_cons.mp hd').2 hlater]

end ChatDice.Dict
