/-
How computations that roll dice end.

* **`RollM.exec_bind`**, **`RollM.exec_lift`** — computations one after another: a fault stops
  the later ones, and the source stays where it was stopped; what only rewrites a value takes
  no words (**`RollM.exec_bind_pure`**);
* **`RollM.Yields`** — from every source, a computation ends without a fault and gives a value
  with a property; `Yields.bind` and its like put such facts together.
-/
import ChatDice.Roll

namespace ChatDice

namespace RollM

variable {G α β : Type}

@[simp] theorem exec_pure (a : α) (source : G) :
    exec (pure a : RollM G α) source = (.ok a, source) := rfl

@[simp] theorem exec_throw (f : Fault) (source : G) :
    exec (throw f : RollM G α) source = (.error f, source) := rfl

@[simp] theorem exec_lift (action : StateM G α) (source : G) :
    exec (ExceptT.lift action) source = (.ok (action.run source).1, (action.run source).2) := rfl

theorem exec_bind (action : RollM G α) (next : α → RollM G β) (source : G) :
    exec (action >>= next) source =
      match exec action source with
      | (.ok a, source) => exec (next a) source
      | (.error f, source) => (.error f, source) := by
  unfold exec ExceptT.run StateT.run
  simp only [bind, ExceptT.bind, ExceptT.mk, StateT.bind]
  -- what follows depends on how `action` ends
  cases action source with
  | mk outcome source => cases outcome <;> rfl

theorem map_eq_ok_iff {f : α → β} {result : Except Fault α} {b : β} :
    result.map f = .ok b ↔ ∃ a, result = .ok a ∧ f a = b := by
  cases result with
  | ok a => simp [Except.map]
  | error fault => simp [Except.map]

theorem map_eq_error_iff {f : α → β} {result : Except Fault α} {fault : Fault} :
    result.map f = .error fault ↔ result = .error fault := by
  cases result with
  | ok a => simp [Except.map]
  | error fault' => simp [Except.map]

theorem exec_bind_pure (action : RollM G α) (f : α → β) (source : G) :
    exec (action >>= fun a => pure (f a)) source =
      ((exec action source).1.map f, (exec action source).2) := by
  rw [exec_bind]
  cases exec action source with
  | mk outcome source => cases outcome <;> rfl

/-- From every source, a computation ends without a fault and gives a value with a property. -/
def Yields (action : RollM G α) (property : α → Prop) : Prop :=
  ∀ source, ∃ a, (exec action source).1 = .ok a ∧ property a

variable {action : RollM G α} {p q : α → Prop}

/-- The value together with the source that is left behind. -/
theorem Yields.exists_exec (h : Yields action p) (source : G) :
    ∃ a left, exec action source = (.ok a, left) ∧ p a := by
  obtain ⟨a, hexec, ha⟩ := h source
  exact ⟨a, (exec action source).2, Prod.ext hexec rfl, ha⟩

theorem Yields.mono (h : Yields action p) (himp : ∀ a, p a → q a) : Yields action q := by
  intro source
  obtain ⟨a, hexec, ha⟩ := h source
  exact ⟨a, hexec, himp a ha⟩

theorem yields_pure {a : α} (ha : p a) : Yields (pure a : RollM G α) p :=
  fun _ => ⟨a, rfl, ha⟩

theorem yields_lift {action : StateM G α} (h : ∀ source, p (action.run source).1) :
    Yields (ExceptT.lift action) p :=
  fun source => ⟨_, rfl, h source⟩

theorem Yields.bind {next : α → RollM G β} {r : β → Prop} (h : Yields action p)
    (hnext : ∀ a, p a → Yields (next a) r) : Yields (action >>= next) r := by
  intro source
  obtain ⟨a, hexec, ha⟩ := h source
  -- the rest starts from the source that `action` leaves behind
  obtain ⟨b, hb, hr⟩ := hnext a ha (exec action source).2
  refine ⟨b, ?_, hr⟩
  have hpair : exec action source = (.ok a, (exec action source).2) := Prod.ext hexec rfl
  rw [exec_bind, hpair]
  exact hb

end RollM

end ChatDice
