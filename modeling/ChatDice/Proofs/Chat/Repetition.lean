/-
A roll set is as good as its rolls one by one.

Both ways start from a text. In the text of a set the search finds the set, which is rolled in one
go and reported in one reply. The text of its expression is the argument of a roll command, which
is given as often as the set asks for. From the same source, both come to the same totals, and take
the same words:

* **`exec_mapM_commandReply`** — commands one after another roll what a set rolls in one go;
* **`RollSet.mention_eq_commands`** — the replies.
-/
import ChatDice.Proofs.Chat.Decision
import ChatDice.Proofs.Roll.Agreement
import ChatDice.Random.Script

namespace ChatDice

open RollM

/-! ### Rolls and replies -/

/-- The reply that reports one total. -/
def Expression.report (e : Expression) (total : Int64) : Reply :=
  .message (Evaluation.single e total).text

variable {G : Type} [WordSource G]

theorem exec_commandReply_text {e : Expression} (h : e.violation? = none) (source : G) :
    exec (commandReply e.text) source =
      ((exec e.roll source).1.map e.report, (exec e.roll source).2) := by
  rw [commandReply, exec_bind, exec_rollCommand, Request.ofCommand_text h]
  dsimp only
  rw [Request.roll, exec_bind_pure]
  cases exec e.roll source with
  | mk result left => cases result <;> rfl

/-- Commands one after another roll what a set rolls in one go. -/
theorem exec_mapM_commandReply {e : Expression} (h : e.violation? = none) (count : Nat)
    (source : G) :
    exec ((List.replicate count e.text).mapM commandReply) source =
      ((exec (e.rollRepeatedly count) source).1.map (List.map e.report),
        (exec (e.rollRepeatedly count) source).2) := by
  induction count generalizing source with
  | zero => rfl
  | succ count ih =>
    rw [List.replicate_succ, List.mapM_cons, exec_bind, exec_commandReply_text h,
      Expression.rollRepeatedly, exec_bind]
    cases exec e.roll source with
    | mk result left =>
      cases result with
      | error fault => rfl
      | ok total =>
        -- the other rolls start from the source that the first one leaves behind
        dsimp only [Except.map]
        rw [exec_bind_pure, exec_bind_pure, ih]
        cases (exec (e.rollRepeatedly count) left).1 <;> rfl

theorem exec_mentionReply?_text {s : RollSet} (h : s.violation? = none) (source : G) :
    exec (mentionReply? s.text true) source =
      ((exec s.roll source).1.map fun totals => some (.message (Evaluation.repeated s totals).text),
        (exec s.roll source).2) := by
  rw [exec_mentionReply?, Decision.ofMention, if_pos rfl, Request.ofMention?_text h]
  dsimp only [Decision.outcome]
  rw [Request.roll, exec_bind_pure]
  cases (exec s.roll source).1 <;> rfl

/-- A roll set within the limits, written as free text, gets one reply, and its expression, given to
the roll command as often as the set asks for, gets one reply each time. From the same source, the
totals in that one reply are those in the replies to the commands, in the same order, and in the end
the source is the same. -/
theorem RollSet.mention_eq_commands {s : RollSet} (h : s.violation? = none) (source : G) :
    ∃ (totals : List Int64) (left : G), totals.length = s.repeats.toNat ∧
      exec (mentionReply? s.text true) source =
        (.ok (some (.message ("[" ++ s.expression.text ++ "] " ++
          ", ".intercalate (totals.map (·.toInt.repr))))), left) ∧
      exec ((List.replicate s.repeats.toNat s.expression.text).mapM commandReply) source =
        (.ok (totals.map fun total =>
          .message ("[" ++ s.expression.text ++ "] " ++ total.toInt.repr)), left) := by
  have hlimits := (s.violation?_eq_none_iff.mp h).1
  obtain ⟨totals, hroll, hlength, _⟩ :=
    Expression.yields_rollRepeatedly (Expression.fits hlimits) s.repeats.toNat source
  refine ⟨totals, (exec s.roll source).2, hlength, ?_, ?_⟩
  · rw [exec_mentionReply?_text h, show (exec s.roll source).1 = .ok totals from hroll]
    rfl
  · have hreport (total : Int64) : s.expression.report total =
        .message ("[" ++ s.expression.text ++ "] " ++ total.toInt.repr) := by
      simp [Expression.report, Evaluation.text, Evaluation.expression, Evaluation.totals]
    rw [exec_mapM_commandReply hlimits, hroll]
    simp only [← hreport]
    rfl

/-- Three rolls of two dice; two of the dice take a second word. -/
theorem RollSet.mention_eq_commands_three :
    let s : RollSet := ⟨3, ⟨2, 6, -1⟩⟩
    let source : Script := ⟨#[0x55555555, 0x80000000, 0, 0xffffffff], by decide, 0⟩
    s.violation? = none ∧ s.text = "3#2d6-1" ∧
      (exec (mentionReply? s.text true) source).1 = .ok (some (.message "[2d6-1] 3, 8, 6")) ∧
      ∃ (totals : List Int64) (left : Script), totals.length = s.repeats.toNat ∧
        exec (mentionReply? s.text true) source =
          (.ok (some (.message ("[" ++ s.expression.text ++ "] " ++
            ", ".intercalate (totals.map (·.toInt.repr))))), left) ∧
        exec ((List.replicate s.repeats.toNat s.expression.text).mapM commandReply) source =
          (.ok (totals.map fun total =>
            .message ("[" ++ s.expression.text ++ "] " ++ total.toInt.repr)), left) := by
  intro s source
  have hlimits : s.violation? = none := by decide
  exact ⟨hlimits, by decide, by decide +kernel, mention_eq_commands hlimits source⟩

end ChatDice
