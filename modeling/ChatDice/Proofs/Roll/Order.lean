/-
Every face that is drawn counts once, in the order of the draws.

Rolls of expressions and of sets nest two loops, and a sequence of requests runs them over and
over on one source. What comes of it is said without loops: draw the faces of all the dice one
after another, cut them into blocks, one block for each total, and add up each block.

* **`Tally`** — totals of expressions, each made of the next block of faces;
* **`exec_rollDice`**, **`Expression.exec_roll`** — a roll takes the faces of its own dice, adds
  them up and adds the modifier once;
* **`Request.exists_exec_roll`** — a set takes the faces of all its rolls, one roll after another;
* **`exec_requests_tally`** — so does a whole sequence of requests, and it leaves the source where
  drawing all its dice would.
-/
import ChatDice.Proofs.Roll.Request
import ChatDice.Random.Script

namespace ChatDice

open RollM

/-! ### Blocks of faces -/

/-- Totals of expressions, and the faces that they are made of: a block of as many faces as an
expression has dice for each, and no face between the blocks. A total is the sum of its block with
the modifier added once; only the result stops at the ends of 64 signed bits. -/
inductive Tally : List Expression → List Nat → List Int64 → Prop
  | nil : Tally [] [] []
  | cons {e : Expression} {block : List Nat} {total : Int64} {es : List Expression}
      {faces : List Nat} {totals : List Int64} (length_block : block.length = e.count.toNat)
      (toInt_total :
        total.toInt = max leastInt64 (min (block.sum + e.modifier.toInt) greatestInt64))
      (rest : Tally es faces totals) : Tally (e :: es) (block ++ faces) (total :: totals)

theorem Tally.append {es es' : List Expression} {faces faces' : List Nat}
    {totals totals' : List Int64} (h : Tally es faces totals) (h' : Tally es' faces' totals') :
    Tally (es ++ es') (faces ++ faces') (totals ++ totals') := by
  induction h with
  | nil => exact h'
  | cons hlength htotal _ ih =>
    rw [List.append_assoc]
    exact .cons hlength htotal ih

theorem Tally.length_totals {es : List Expression} {faces : List Nat} {totals : List Int64}
    (h : Tally es faces totals) : totals.length = es.length := by
  induction h with
  | nil => rfl
  | cons _ _ _ ih => rw [List.length_cons, List.length_cons, ih]

/-- The dice of an expression, by their numbers of sides. -/
def Expression.dice (e : Expression) : List Nat :=
  List.replicate e.count.toNat e.sides.toNat

namespace Request

/-- The expressions that a request rolls, one for each total. -/
def expressions (request : Request) : List Expression :=
  List.replicate request.rolls request.expression

/-- The dice of a request: those of its expression, as often as it is rolled. -/
def dice (request : Request) : List Nat :=
  List.replicate (request.rolls * request.expression.count.toNat) request.expression.sides.toNat

theorem flatMap_dice_expressions (request : Request) :
    request.expressions.flatMap Expression.dice = request.dice := by
  rw [expressions, List.flatMap_replicate, Expression.dice, List.flatten_replicate_replicate, dice]

end Request

/-! ### One roll -/

variable {G : Type} [WordSource G]

theorem exec_rollDice {sides : Nat} (hpos : 0 < sides) (hle : sides ≤ wordCount)
    (count sum : Nat) (hfit : sum + count * sides ≤ greatestInt64) (source : G) :
    exec (rollDice sides count sum) source =
      (.ok (sum + (drawFaces (List.replicate count sides) source).1.sum),
        (drawFaces (List.replicate count sides) source).2) := by
  induction count generalizing sum source with
  | zero => rfl
  | succ count ih =>
    rw [Nat.succ_mul] at hfit
    have hface := draw_mem hpos hle source
    have hsum : sum + ((draw sides).run source).1 + count * sides ≤ greatestInt64 := by omega
    rw [rollDice, exec_bind, exec_lift]
    dsimp only
    rw [if_pos (by omega), ih _ hsum, List.replicate_succ, drawFaces_cons, List.sum_cons,
      Nat.add_assoc]

theorem Expression.exec_roll {e : Expression} (h : e.Fits) (source : G) :
    exec e.roll source =
      (.ok (addModifier (drawFaces e.dice source).1.sum e.modifier),
        (drawFaces e.dice source).2) := by
  have hsides : e.sides.toNat ≤ wordCount := Nat.le_of_lt e.sides.toNat_lt
  have hfit : 0 + e.count.toNat * e.sides.toNat ≤ greatestInt64 := by
    rw [Nat.zero_add]
    exact h.product_le
  rw [roll, if_neg (Nat.ne_of_gt h.sides_pos), exec_bind,
    exec_rollDice h.sides_pos hsides _ 0 hfit, Nat.zero_add]
  rfl

theorem Expression.tally_dice (e : Expression) (source : G) :
    Tally [e] (drawFaces e.dice source).1
      [addModifier (drawFaces e.dice source).1.sum e.modifier] := by
  have hlength : (drawFaces e.dice source).1.length = e.count.toNat := by
    rw [length_drawFaces, dice, List.length_replicate]
  have h := Tally.cons hlength (toInt_addModifier _ e.modifier) .nil
  rw [List.append_nil] at h
  exact h

/-! ### Rolls of sets -/

theorem Expression.exists_exec_rollRepeatedly {e : Expression} (h : e.Fits) (count : Nat)
    (source : G) :
    let drawn := drawFaces ((List.replicate count e).flatMap dice) source
    ∃ totals, exec (e.rollRepeatedly count) source = (.ok totals, drawn.2) ∧
      Tally (List.replicate count e) drawn.1 totals := by
  induction count generalizing source with
  | zero => exact ⟨[], rfl, .nil⟩
  | succ count ih =>
    -- the remaining rolls start where the dice of the first one leave the source
    obtain ⟨totals, hexec, htally⟩ := ih (drawFaces e.dice source).2
    rw [List.replicate_succ, List.flatMap_cons, drawFaces_append]
    refine ⟨_, ?_, (e.tally_dice source).append htally⟩
    rw [rollRepeatedly, exec_bind, exec_roll h]
    dsimp only
    rw [exec_bind, hexec]
    rfl

/-- A request takes the faces of all its dice, in the order in which they are drawn. -/
theorem Request.exists_exec_roll {request : Request} (h : request.expression.Fits) (source : G) :
    ∃ v, exec request.roll source = (.ok v, (drawFaces request.dice source).2) ∧
      v.expression = request.expression ∧
      Tally request.expressions (drawFaces request.dice source).1 v.totals := by
  rw [← request.flatMap_dice_expressions]
  cases request with
  | single e =>
    have hdice : (expressions (.single e)).flatMap Expression.dice = e.dice := List.append_nil _
    rw [hdice]
    refine ⟨.single e (addModifier (drawFaces e.dice source).1.sum e.modifier), ?_, rfl,
      e.tally_dice source⟩
    rw [Request.roll, exec_bind_pure, Expression.exec_roll (e := e) h]
    rfl
  | repeated s =>
    obtain ⟨totals, hexec, htally⟩ :=
      Expression.exists_exec_rollRepeatedly (e := s.expression) h s.repeats.toNat source
    refine ⟨.repeated s totals, ?_, rfl, htally⟩
    rw [Request.roll, exec_bind_pure, RollSet.roll, hexec]
    rfl

/-! ### Sequences of requests -/

/-- However many requests are carried out on one source, one after another: draw all their dice in
order, and the faces are those that the totals are made of, block by block and without a rest. The
source is left where those draws leave it. -/
theorem exec_requests_tally (requests : List Request)
    (hfits : ∀ request ∈ requests, request.expression.Fits) (source : G) :
    ∃ evaluations, exec (requests.mapM Request.roll) source =
        (.ok evaluations, (drawFaces (requests.flatMap Request.dice) source).2) ∧
      List.Forall₂ (fun (request : Request) (v : Evaluation) =>
        v.expression = request.expression ∧ v.totals.length = request.rolls) requests evaluations ∧
      Tally (requests.flatMap Request.expressions)
        (drawFaces (requests.flatMap Request.dice) source).1
        (evaluations.flatMap Evaluation.totals) := by
  induction requests generalizing source with
  | nil => exact ⟨[], rfl, .nil, .nil⟩
  | cons request requests ih =>
    rw [List.forall_mem_cons] at hfits
    obtain ⟨v, hv, hexpression, htally⟩ := Request.exists_exec_roll hfits.1 source
    obtain ⟨vs, hvs, hforall, htallies⟩ := ih hfits.2 (drawFaces request.dice source).2
    have hlength : v.totals.length = request.rolls := by
      rw [htally.length_totals, Request.expressions, List.length_replicate]
    simp only [List.flatMap_cons]
    rw [drawFaces_append]
    refine ⟨v :: vs, ?_, .cons ⟨hexpression, hlength⟩ hforall, htally.append htallies⟩
    rw [List.mapM_cons, exec_bind, hv]
    dsimp only
    rw [exec_bind_pure, hvs]
    rfl

/-- Two dice of six sides, three rolls of a die of twenty, and a roll without dice. -/
theorem exec_requests_tally_unequal_dice :
    let source : Script := ⟨#[0xffffffff, 0, 0x80000000, 0x40000000], by decide, 0⟩
    let requests : List Request :=
      [.single ⟨2, 6, 1⟩, .repeated ⟨3, ⟨1, 20, -1⟩⟩, .single ⟨0, 4, 5⟩]
    (∀ request ∈ requests, request.expression.Fits) ∧
      requests.flatMap Request.dice = [6, 6, 20, 20, 20] ∧
      (drawFaces [6, 6, 20, 20, 20] source).1 = [6, 1, 11, 6, 20] ∧
      Tally [⟨2, 6, 1⟩, ⟨1, 20, -1⟩, ⟨1, 20, -1⟩, ⟨1, 20, -1⟩, ⟨0, 4, 5⟩] [6, 1, 11, 6, 20]
        [8, 10, 5, 19, 5] := by
  intro source requests
  have hlimits : ∀ request ∈ requests, request.expression.violation? = none := by decide
  have hfits : ∀ request ∈ requests, request.expression.Fits :=
    fun request h => Expression.fits (hlimits request h)
  have hfaces : (drawFaces (requests.flatMap Request.dice) source).1 = [6, 1, 11, 6, 20] := by
    decide +kernel
  have hrun : (exec (requests.mapM Request.roll) source).1 =
      .ok [.single ⟨2, 6, 1⟩ 8, .repeated ⟨3, ⟨1, 20, -1⟩⟩ [10, 5, 19], .single ⟨0, 4, 5⟩ 5] := by
    decide +kernel
  obtain ⟨evaluations, hexec, _, htally⟩ := exec_requests_tally requests hfits source
  rw [hexec] at hrun
  rw [hfaces, Except.ok.inj hrun] at htally
  exact ⟨hfits, rfl, hfaces, htally⟩

end ChatDice
