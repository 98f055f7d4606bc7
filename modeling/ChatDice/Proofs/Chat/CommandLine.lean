/-
The command line and the bot.

The words of a command line are rolled or scanned without a bot, a message, a prefix or switches.
The outcome is still that of a bot: of a new one with the same seed that gets the words in one
message, behind its prefix or as free text. What stands between the command and its argument is
white space, and what marks an action is of no use in dice notation.

* **`ofArguments_seeded`** — there is a command line for every seed and all words;
* **`Reply.outcome`**, **`rollWords_eq`**, **`scanWords_eq`** — what is printed, said by the reply;
* **`Settings.firstAnswer_command`**, **`Settings.firstAnswer_mention`** — the same reply, given by
  a bot;
* **`AsksFor.exists_reply`**, **`AsksFor.exists_mention`** — the outcome of a run and the answers of
  bots;
* **`run_agrees_with_bot`** — all of it together.
-/
import ChatDice.Proofs.Chat.Action
import ChatDice.Proofs.Chat.Switches
import ChatDice.Program

namespace ChatDice

open RollM

/-! ### Arguments -/

theorem isDigit_of_mem_repr {n : Nat} {c : Char} (h : c ∈ n.repr.toList) : c.isDigit := by
  rw [Nat.toList_repr] at h
  exact Nat.isDigit_of_mem_toDigits (by decide) (by decide) h

theorem exists_repr_eq_cons (n : Nat) : ∃ c rest, n.repr.toList = c :: rest ∧ c.isDigit := by
  cases h : n.repr.toList with
  | nil =>
    rw [Nat.toList_repr] at h
    exact absurd h Nat.toDigits_ne_nil
  | cons c rest => exact ⟨c, rest, rfl, isDigit_of_mem_repr (h ▸ List.mem_cons_self)⟩

theorem ne_of_isDigit {c d : Char} (hc : c.isDigit) (hd : d.isDigit = false) : c ≠ d := by
  rintro rfl
  rw [hc] at hd
  cases hd

theorem readUnsigned64?_repr {n : Nat} (h : n ≤ greatestUInt64) :
    readUnsigned64? n.repr.toList = some n := by
  obtain ⟨c, rest, hcons, hdigit⟩ := exists_repr_eq_cons n
  have hplus : (n.repr.toList.head? == some '+') = false := by
    simpa [hcons] using ne_of_isDigit hdigit (d := '+') rfl
  have hne : n.repr.toList.isEmpty = false := by rw [hcons]; rfl
  have hall : n.repr.toList.all Char.isDigit := List.all_eq_true.mpr fun c => isDigit_of_mem_repr
  have hvalue : decimalValue n.repr.toList = n := by
    rw [decimalValue, Nat.toList_repr, Nat.ofDigitChars_ten_toDigits]
  have hread : readDigitsOnly? true n.repr.toList = some n := by
    simp only [readDigitsOnly?, hplus, Bool.and_false, Bool.false_eq_true, if_false, hne, hall,
      Bool.not_true, Bool.or_false, hvalue]
  rw [readUnsigned64?, hread, Option.filter_some, if_pos (decide_eq_true h)]

theorem isValue_repr (n : Nat) : Argument.isValue n.repr := by
  obtain ⟨c, rest, hcons, hdigit⟩ := exists_repr_eq_cons n
  have hne : c ≠ '-' := ne_of_isDigit hdigit rfl
  rw [Argument.isValue, hcons]
  split
  · rfl
  · next heq => exact absurd (List.cons.inj heq).1 hne
  · rfl

theorem mem_taskNames_of_ofWords? {name : String} {words : List String} {task : Task}
    (h : Task.ofWords? name words = some task) : name ∈ taskNames := by
  unfold Task.ofWords? at h
  split at h
  · decide
  · decide
  · decide
  · cases h

/-- The options of a command line, a task and its words. Two hyphens in front of the words keep them
from being taken for options. -/
theorem ofArguments_seeded (seed : UInt64) {name : String} {words : List String} {task : Task}
    (h : Task.ofWords? name words = some task) :
    Invocation.ofArguments ("--seed" :: seed.toNat.repr :: name :: "--" :: words) =
      .ok ⟨⟨none, some seed⟩, task⟩ := by
  have hname := mem_taskNames_of_ofWords? h
  have hoption : Argument.ofChars .beforeTask "--seed".toList = .awaiting .seed := by decide
  have hwords : ∀ name ∈ taskNames, Argument.ofChars .beforeTask name.toList = .word := by decide
  have hset : Options.empty.set? .seed seed.toNat.repr = some ⟨none, some seed⟩ := by
    rw [Options.set?, readUnsigned64?_repr (Nat.le_of_lt_succ seed.toNat_lt)]
    simp [Options.empty]
  have hfront : scanArguments .beforeTask .empty []
      ("--seed" :: seed.toNat.repr :: name :: "--" :: words) =
        .ok ⟨⟨none, some seed⟩, [name], "--" :: words⟩ := by
    rw [scanArguments, hoption]
    dsimp only
    rw [if_pos (isValue_repr _), hset]
    dsimp only
    rw [scanArguments, hwords name hname]
  have hback : scanArguments .behindTask .empty [] ("--" :: words) = .ok ⟨.empty, words, []⟩ := by
    rw [scanArguments, show Argument.ofChars .behindTask "--".toList = .escape by decide]
    rfl
  have hhelp : name ≠ "help" := by
    rintro rfl
    revert hname
    decide
  simp only [Invocation.ofArguments, hfront, bind, Except.bind, if_neg hhelp,
    List.contains_iff_mem, hname, if_true, hback, h]
  rfl

/-! ### Outcomes -/

theorem printedLine_injective : Function.Injective printedLine := by
  intro a b h
  rw [printedLine, printedLine, ← String.toList_inj, String.toList_append, String.toList_append] at h
  exact String.toList_inj.mp (List.append_cancel_right h)

theorem printedLine_ne_empty (text : String) : printedLine text ≠ "" := by
  rw [printedLine, ne_eq, ← String.toList_inj, String.toList_append]
  simp

namespace Reply

/-- The reply to a command. -/
def ofResult : Except RequestError Evaluation → Reply
  | .ok v => .message v.text
  | .error e => .error e.message

/-- The outcome of a run that gives a reply. -/
def outcome : Reply → Outcome
  | message text => .success (printedLine text)
  | error reason => .failure "" reason

theorem outcome_prints_iff {reply : Reply} {text : String} :
    reply.outcome.code = 0 ∧ reply.outcome.output = printedLine text ↔ reply = .message text := by
  cases reply with
  | message said => simp [outcome, Outcome.success, printedLine_injective.eq_iff]
  | error reason => simp [outcome, Outcome.failure, failureCode]

theorem outcome_fails_iff {reply : Reply} :
    reply.outcome.code = 1 ∧ reply.outcome.output = "" ↔ ∃ reason, reply = .error reason := by
  cases reply with
  | message said => simp [outcome, Outcome.success]
  | error reason => simp [outcome, Outcome.failure, failureCode]

end Reply

theorem exec_commandReply_eq_map {G : Type} [WordSource G] (argument : String) (source : G) :
    exec (commandReply argument) source =
      ((exec (rollCommand argument) source).1.map Reply.ofResult,
        (exec (rollCommand argument) source).2) := by
  rw [commandReply, exec_bind]
  cases exec (rollCommand argument) source with
  | mk result left =>
    cases result with
    | error fault => rfl
    | ok result => cases result <;> rfl

/-- The outcome for words that are rolled is that of the reply to the command. -/
theorem rollWords_eq {words : List String} {stream : Stream} {reply : Reply}
    (h : (exec (commandReply (" ".intercalate words)) stream).1 = .ok reply) :
    rollWords words stream = reply.outcome := by
  rw [exec_commandReply_eq_map] at h
  dsimp only at h
  obtain ⟨result, hresult, rfl⟩ := map_eq_ok_iff.mp h
  rw [rollWords, hresult]
  cases result <;> rfl

/-- What is printed for words that are scanned is what comes of the free text, if anything does. -/
theorem scanWords_eq {words : List String} {stream : Stream} {v? : Option Evaluation}
    (h : (exec (rollMention (" ".intercalate words) true) stream).1 = .ok v?) :
    scanWords words stream = .success ((v?.map fun v => printedLine v.text).getD "") := by
  rw [scanWords, h]
  cases v? <;> rfl

theorem printed_eq_iff {v? : Option Evaluation} {text : String} :
    (v?.map fun v => printedLine v.text).getD "" = printedLine text ↔
      v?.map (fun v => Reply.message v.text) = some (.message text) := by
  cases v? with
  | none => simp [(printedLine_ne_empty text).symm]
  | some v => simp [printedLine_injective.eq_iff]

/-! ### New bots -/

/-- What a bot answers to the first message that it gets. -/
def Settings.firstAnswer (settings : Settings) (entropy : UInt64) (m : Message) : Answer :=
  (exec (settings.handle m) (settings.start entropy)).1

theorem Settings.start_of_seed {settings : Settings} {seed : UInt64}
    (h : settings.seed = some seed) (entropy : UInt64) :
    settings.start entropy = Stream.ofSeed seed := by
  rw [start, h, Option.getD_some]

/-- White space in front of the argument of a command plays no part. -/
theorem rollCommand_space_append {G : Type} [WordSource G] (argument : String) :
    (rollCommand (" " ++ argument) : RollM G _) = rollCommand argument := by
  have htext : (" " ++ argument).toList = [' '] ++ argument.toList ++ [] := by
    rw [String.toList_append, List.append_nil]
    rfl
  have htrim : trim (" " ++ argument) = trim argument :=
    trim_of_between htext (List.forall_mem_singleton.mpr rfl) (List.forall_mem_nil _)
  rw [rollCommand, rollCommand, Request.ofCommand, Request.ofCommand, htrim]

/-- The command in a message is answered as its argument. -/
theorem Settings.firstAnswer_command {bot : Settings} {seed : UInt64} (hseed : bot.seed = some seed)
    (entropy : UInt64) (target argument : String) :
    bot.firstAnswer entropy ⟨target, bot.commandPrefix ++ "roll " ++ argument⟩ =
      (exec (commandReply argument) (Stream.ofSeed seed)).1.map some := by
  have hcommands : bot.Commands (bot.commandPrefix ++ "roll " ++ argument) (" " ++ argument) := by
    refine ⟨?_, ?_⟩
    · rw [show "roll " = "roll" ++ " " from rfl, ← String.append_assoc, String.append_assoc]
    · intro c hc
      rw [String.toList_append] at hc
      cases hc
      rfl
  rw [firstAnswer, start_of_seed hseed, exec_handle_of_commands hcommands]
  dsimp only
  rw [exec_commandReply_eq_map, rollCommand_space_append, ← exec_commandReply_eq_map]

/-- Free text in a message is answered with what comes of it. -/
theorem Settings.firstAnswer_mention {bot : Settings} {seed : UInt64} (hseed : bot.seed = some seed)
    (entropy : UInt64) {m : Message} (hswitch : bot.switch m)
    (hfree : ∀ argument, ¬ bot.Commands m.text argument) :
    bot.firstAnswer entropy m =
      (exec (rollMention m.text true) (Stream.ofSeed seed)).1.map
        (Option.map fun v => .message v.text) := by
  rw [firstAnswer, start_of_seed hseed, exec_handle_eq_text hfree, hswitch]

/-! ### Runs -/

/-- The arguments ask for a task with a seed, and the configuration that is found can be loaded. -/
structure AsksFor (arguments : List String) (around : Surroundings) (seed : UInt64) (task : Task) :
    Prop where
  spelled : ∃ configPath, Invocation.ofArguments arguments = .ok ⟨⟨configPath, some seed⟩, task⟩
  loads : ∃ loaded, Settings.load around.file around.environment = .ok loaded

theorem AsksFor.exists_run_eq {arguments : List String} {around : Surroundings} {seed : UInt64}
    {task : Task} (h : AsksFor arguments around seed task) :
    ∃ settings : Settings, settings.seed = some seed ∧
      run arguments around = Invocation.perform task settings around := by
  obtain ⟨configPath, hspelled⟩ := h.spelled
  obtain ⟨loaded, hloaded⟩ := h.loads
  refine ⟨{ loaded with seed := some seed }, rfl, ?_⟩
  rw [run, hspelled]
  dsimp only
  rw [Invocation.run, Invocation.settings, hloaded]
  rfl

theorem AsksFor.run_roll {arguments : List String} {around : Surroundings} {seed : UInt64}
    {words : List String} (h : AsksFor arguments around seed (.roll words)) :
    run arguments around = rollWords words (Stream.ofSeed seed) := by
  obtain ⟨settings, hseed, hrun⟩ := h.exists_run_eq
  rw [hrun, Invocation.perform, hseed, Option.getD_some]

theorem AsksFor.run_scan {arguments : List String} {around : Surroundings} {seed : UInt64}
    {words : List String} (h : AsksFor arguments around seed (.scan words)) :
    run arguments around = scanWords words (Stream.ofSeed seed) := by
  obtain ⟨settings, hseed, hrun⟩ := h.exists_run_eq
  rw [hrun, Invocation.perform, hseed, Option.getD_some]

/-- A run that rolls words gives the reply of every new bot with the same seed. -/
theorem AsksFor.exists_reply {arguments : List String} {around : Surroundings} {seed : UInt64}
    {words : List String} (h : AsksFor arguments around seed (.roll words)) :
    ∃ reply : Reply, run arguments around = reply.outcome ∧
      ∀ (bot : Settings) (entropy : UInt64) (target : String), bot.seed = some seed →
        bot.firstAnswer entropy
          ⟨target, bot.commandPrefix ++ "roll " ++ " ".intercalate words⟩ = .ok (some reply) := by
  obtain ⟨reply, _, hreply, -⟩ :=
    (yields_commandReply (" ".intercalate words) True).exists_exec (Stream.ofSeed seed)
  refine ⟨reply, h.run_roll.trans (rollWords_eq (congrArg Prod.fst hreply)), ?_⟩
  intro bot entropy target hseed
  rw [Settings.firstAnswer_command hseed, hreply]
  rfl

/-- A run that scans words prints what every new bot with the same seed says that scans them. -/
theorem AsksFor.exists_mention {arguments : List String} {around : Surroundings} {seed : UInt64}
    {words : List String} (h : AsksFor arguments around seed (.scan words)) :
    ∃ v? : Option Evaluation,
      run arguments around = .success ((v?.map fun v => printedLine v.text).getD "") ∧
      ∀ (bot : Settings) (entropy : UInt64) (m : Message), bot.seed = some seed →
        m.text = " ".intercalate words → bot.switch m →
        (∀ argument, ¬ bot.Commands m.text argument) →
        bot.firstAnswer entropy m = .ok (v?.map fun v => .message v.text) := by
  obtain ⟨v?, _, hv, -⟩ :=
    (yields_rollMention (" ".intercalate words) true).exists_exec (Stream.ofSeed seed)
  refine ⟨v?, h.run_scan.trans (scanWords_eq (congrArg Prod.fst hv)), ?_⟩
  intro bot entropy m hseed htext hswitch hfree
  rw [Settings.firstAnswer_mention hseed entropy hswitch hfree, htext, hv]
  rfl

theorem exists_ofWords? {words : List String} (hne : words ≠ []) {task : Task}
    (h : task = .roll words ∨ task = .scan words) :
    ∃ name, Task.ofWords? name words = some task := by
  obtain ⟨word, rest, rfl⟩ := List.exists_cons_of_ne_nil hne
  rcases h with rfl | rfl
  · exact ⟨"roll", rfl⟩
  · exact ⟨"scan", rfl⟩

/-- For every text there is a bot that scans it. -/
theorem Settings.exists_scans (seed : UInt64) (m : Message) :
    ∃ bot : Settings, bot.seed = some seed ∧ bot.switch m ∧
      ∀ argument, ¬ bot.Commands m.text argument := by
  refine ⟨⟨m.text ++ "!", ⟨true, true, []⟩, some seed⟩, rfl, ?_, fun argument h => ?_⟩
  · rw [switch]
    split <;> rfl
  · have hlength := congrArg String.length h.text_eq
    simp only [String.length_append] at hlength
    have hmark : "!".length = 1 := rfl
    omega

/-- Let the command line ask for a roll of some words with a seed. The outcome is that of a new bot
with this seed which gets the words, joined by spaces, as the argument of the roll command, in any
conversation and behind any prefix: its reply is printed, or else it refuses and the run fails. If
the words are to be scanned, the run succeeds, and it prints the reply of a new bot which gets the
words as free text in a conversation that is scanned, or nothing if there is none. What the
configuration says plays no part. All words can be given, with every seed, for either task. -/
theorem run_agrees_with_bot (seed : UInt64) (words : List String) :
    let text := " ".intercalate words
    (∀ arguments around, AsksFor arguments around seed (.roll words) →
      ∀ (bot : Settings) (entropy : UInt64) (target : String), bot.seed = some seed →
        let outcome := run arguments around
        let answer := bot.firstAnswer entropy ⟨target, bot.commandPrefix ++ "roll " ++ text⟩
        (∀ reply, outcome.code = 0 ∧ outcome.output = reply ++ "\n" ↔
          answer = .ok (some (.message reply))) ∧
        (outcome.code = 1 ∧ outcome.output = "" ↔ ∃ reason, answer = .ok (some (.error reason)))) ∧
    (∀ arguments around, AsksFor arguments around seed (.scan words) →
      let outcome := run arguments around
      outcome.code = 0 ∧
      ∀ (bot : Settings) (entropy : UInt64) (target : String), bot.seed = some seed →
        bot.switch ⟨target, text⟩ → (∀ argument, ¬ bot.Commands text argument) →
        let answer := bot.firstAnswer entropy ⟨target, text⟩
        (∀ reply, outcome.output = reply ++ "\n" ↔ answer = .ok (some (.message reply))) ∧
        ((∀ reply, answer ≠ .ok (some (.message reply))) → outcome.output = "")) ∧
    (∀ target, ∃ bot : Settings, bot.seed = some seed ∧ bot.switch ⟨target, text⟩ ∧
      ∀ argument, ¬ bot.Commands text argument) ∧
    ∀ task, task = .roll words ∨ task = .scan words →
      (∀ arguments around arguments' around', AsksFor arguments around seed task →
        AsksFor arguments' around' seed task → run arguments around = run arguments' around') ∧
      (words ≠ [] → ∃ arguments, ∀ around loaded,
        Settings.load around.file around.environment = .ok loaded →
          AsksFor arguments around seed task) := by
  intro text
  refine ⟨?_, ?_, fun target => Settings.exists_scans seed ⟨target, text⟩, ?_⟩
  · intro arguments around h bot entropy target hseed outcome answer
    obtain ⟨reply, hrun, hbots⟩ := h.exists_reply
    have houtcome : outcome = reply.outcome := hrun
    have hanswer : answer = .ok (some reply) := hbots bot entropy target hseed
    rw [houtcome, hanswer]
    constructor
    · intro said
      exact Reply.outcome_prints_iff.trans (by simp)
    · exact Reply.outcome_fails_iff.trans (by simp)
  · intro arguments around h outcome
    obtain ⟨v?, hrun, hbots⟩ := h.exists_mention
    have houtcome : outcome = .success ((v?.map fun v => printedLine v.text).getD "") := hrun
    refine ⟨congrArg Outcome.code houtcome, ?_⟩
    intro bot entropy target hseed hswitch hfree answer
    have hanswer : answer = .ok (v?.map fun v => .message v.text) :=
      hbots bot entropy ⟨target, text⟩ hseed rfl hswitch hfree
    rw [houtcome, hanswer]
    refine ⟨fun said => printed_eq_iff.trans (by simp), fun hsilent => ?_⟩
    cases v? with
    | none => rfl
    | some v => exact absurd rfl (hsilent v.text)
  · intro task htask
    refine ⟨fun arguments around arguments' around' h h' => ?_, fun hne => ?_⟩
    · rcases htask with rfl | rfl
      · rw [h.run_roll, h'.run_roll]
      · rw [h.run_scan, h'.run_scan]
    · obtain ⟨name, hname⟩ := exists_ofWords? hne htask
      exact ⟨_, fun around loaded hloaded => ⟨⟨none, ofArguments_seeded seed hname⟩, loaded, hloaded⟩⟩

/-- Words that spell no expression because of a space, and words that mention one. The configuration
has a prefix, switches and two seeds of its own. -/
theorem run_agrees_with_bot_other_settings :
    let around : Surroundings :=
      ⟨.found (some "seed = 3\ncommand_prefix = '?'"), [⟨"DICEBOT_SEED", "5"⟩], [], 9⟩
    let bot : Settings := ⟨"!", ⟨false, false, [("#Den", true)]⟩, some 7⟩
    let rolled := ["--seed=7", "roll", "--", "\t0d6", "+3"]
    let scanned := ["scan", "--seed", "7", "just", "0d6-3"]
    AsksFor rolled around 7 (.roll ["\t0d6", "+3"]) ∧
    (∃ reason, bot.firstAnswer 0 ⟨"bob", "!roll \t0d6 +3"⟩ = .ok (some (.error reason))) ∧
    ((run rolled around).code = 1 ∧ (run rolled around).output = "") ∧
    AsksFor scanned around 7 (.scan ["just", "0d6-3"]) ∧
    bot.firstAnswer 0 ⟨"#den", "just 0d6-3"⟩ = .ok (some (.message "[0d6-3] -3")) ∧
    (run scanned around).output = "[0d6-3] -3\n" := by
  intro around bot rolled scanned
  have hloads : ∃ loaded, Settings.load around.file around.environment = .ok loaded := by
    have hok : (Settings.load around.file around.environment).isOk := by decide +kernel
    cases hload : Settings.load around.file around.environment with
    | ok loaded => exact ⟨loaded, rfl⟩
    | error e =>
      rw [hload] at hok
      cases hok
  have hrolled : AsksFor rolled around 7 (.roll ["\t0d6", "+3"]) := ⟨⟨none, rfl⟩, hloads⟩
  have hscanned : AsksFor scanned around 7 (.scan ["just", "0d6-3"]) := ⟨⟨none, rfl⟩, hloads⟩
  have hrefused :
      bot.firstAnswer 0 ⟨"bob", "!roll \t0d6 +3"⟩ = .ok (some (.error RequestError.usage.message)) := by
    decide +kernel
  have hsaid : bot.firstAnswer 0 ⟨"#den", "just 0d6-3"⟩ = .ok (some (.message "[0d6-3] -3")) := by
    decide +kernel
  have hfree : ∀ argument, ¬ bot.Commands "just 0d6-3" argument :=
    Settings.commandArgument?_eq_none_iff.mp (by decide)
  refine ⟨hrolled, ⟨_, hrefused⟩, ?_, hscanned, hsaid, ?_⟩
  · have hroll := (run_agrees_with_bot 7 ["\t0d6", "+3"]).1 rolled around hrolled bot 0 "bob" rfl
    exact hroll.2.mpr ⟨_, hrefused⟩
  · have hscan := (run_agrees_with_bot 7 ["just", "0d6-3"]).2.1 scanned around hscanned
    exact ((hscan.2 bot 0 "#den" rfl (by decide) hfree).1 _).mpr hsaid

end ChatDice
