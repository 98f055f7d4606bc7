/-
What a feed of lines says, and how it is taken apart again.

A line of the input is a target, a space and a text, and a line of the output is put together in the
same way from a target and a reply. Nothing is escaped. But a line has no line feed in it and a
target no space, and whatever a message says, no reply holds a line feed; so the output can be taken
apart again.

* **`Message.StandsIn`**, **`Message.ofLine?_eq_some_iff`** — the message in a line, if it has one;
* **`newline_not_mem_of_decodeText?`** — the lines of the input, as bytes and as characters;
* **`Reply.Sound.newline_not_mem_display`** — no reply holds a line feed;
* **`Settings.answerBytes_of_message`**, **`Settings.answerBytes_of_none`** — one line is answered
  as the message in it, and a line without one changes nothing;
* **`Settings.feed_eq`** — all lines are answered as a conversation;
* **`listen_framed`** — what is printed, taken apart.
-/
import ChatDice.Program
import ChatDice.Proofs.Chat.Replies
import ChatDice.Proofs.Notation.Report

namespace ChatDice

/-! ### Lines -/

theorem lineFeed_not_mem_dropReturn {line : List UInt8} (h : lineFeed ∉ line) :
    lineFeed ∉ dropReturn line := by
  rw [dropReturn]
  split
  · exact fun hmem => h (List.mem_of_mem_dropLast hmem)
  · exact h

theorem lineFeed_not_mem_of_mem_splitLinesFrom {line bytes line' : List UInt8}
    (h : lineFeed ∉ line) (hmem : line' ∈ splitLinesFrom line bytes) : lineFeed ∉ line' := by
  have hreverse {line : List UInt8} (h : lineFeed ∉ line) : lineFeed ∉ line.reverse :=
    fun hmem => h (List.mem_reverse.mp hmem)
  induction bytes generalizing line with
  | nil =>
    rw [splitLinesFrom] at hmem
    split at hmem
    · exact absurd hmem List.not_mem_nil
    · rw [List.mem_singleton.mp hmem]
      exact hreverse h
  | cons b bytes ih =>
    rw [splitLinesFrom] at hmem
    split at hmem
    · rcases List.mem_cons.mp hmem with rfl | hlater
      · exact lineFeed_not_mem_dropReturn (hreverse h)
      · exact ih List.not_mem_nil hlater
    · next hb =>
      refine ih ?_ hmem
      rw [List.mem_cons, not_or]
      exact ⟨fun heq => hb heq.symm, h⟩

theorem lineFeed_not_mem_of_mem_splitLines {bytes line : List UInt8}
    (h : line ∈ splitLines bytes) : lineFeed ∉ line :=
  lineFeed_not_mem_of_mem_splitLinesFrom List.not_mem_nil h

theorem decodeText?_eq_some_iff {bytes : List UInt8} {text : String} :
    decodeText? bytes = some text ↔ text.toByteArray.data.toList = bytes := by
  rw [decodeText?, String.fromUTF8?]
  constructor
  · intro h
    split at h
    · cases h
      exact List.toList_data_toByteArray
    · cases h
  · rintro rfl
    have hbytes : text.toByteArray.data.toList.toByteArray = text.toByteArray :=
      ByteArray.ext List.data_toByteArray
    simp only [hbytes, dif_pos text.isValidUTF8]
    rfl

/-- A line without a line feed among its bytes has none among its characters. -/
theorem newline_not_mem_of_decodeText? {bytes : List UInt8} {text : String}
    (h : decodeText? bytes = some text) (hbytes : lineFeed ∉ bytes) : '\n' ∉ text.toList := by
  intro hmem
  refine hbytes ?_
  rw [← decodeText?_eq_some_iff.mp h]
  obtain ⟨cs, rfl⟩ := text.exists_eq_ofList
  rw [String.toList_ofList] at hmem
  rw [String.toByteArray_ofList, List.utf8Encode, List.toList_data_toByteArray]
  exact List.mem_flatMap.mpr ⟨'\n', hmem, by decide⟩

/-! ### Messages in lines -/

/-- A line holds a message: the target, a space and the text. The target has no space, so it ends
at the first one of the line. -/
structure Message.StandsIn (m : Message) (line : String) : Prop where
  line_eq : line = m.target ++ " " ++ m.text
  space_not_mem : ' ' ∉ m.target.toList

theorem Message.StandsIn.toList_line {m : Message} {line : String} (h : m.StandsIn line) :
    line.toList = m.target.toList ++ ' ' :: m.text.toList := by
  rw [h.line_eq, String.toList_append, String.toList_append, List.append_assoc]
  rfl

theorem Message.ofLine?_eq_some_iff {line : String} {m : Message} :
    ofLine? line = some m ↔ m.StandsIn line := by
  rw [ofLine?, List.span_eq_takeWhile_dropWhile]
  constructor
  · intro h
    have hsplit := line.toList.takeWhile_append_dropWhile (p := (· != ' '))
    have hfirst := line.toList.head?_dropWhile_not (· != ' ')
    have htarget := line.toList.all_takeWhile (p := (· != ' '))
    generalize line.toList.takeWhile (· != ' ') = target at h hsplit htarget
    generalize line.toList.dropWhile (· != ' ') = rest at h hsplit hfirst
    cases rest with
    | nil => cases h
    | cons c text =>
      cases h
      have hspace : c = ' ' := by simpa using hfirst
      refine ⟨?_, ?_⟩
      · rw [← String.toList_inj, ← hsplit, hspace]
        simp
      · intro hmem
        rw [String.toList_ofList] at hmem
        simpa using List.all_eq_true.mp htarget ' ' hmem
  · intro h
    have hne : ∀ c ∈ m.target.toList, (c != ' ') = true := by
      intro c hc
      rw [bne_iff_ne]
      rintro rfl
      exact h.space_not_mem hc
    rw [h.toList_line, List.takeWhile_append_of_pos hne, List.dropWhile_append_of_pos hne]
    simp

theorem Reply.standsIn_line {target : String} (h : ' ' ∉ target.toList) (reply : Reply) :
    (⟨target, reply.display⟩ : Message).StandsIn (reply.line target) :=
  ⟨rfl, h⟩

/-! ### Replies in lines -/

/-- Neither the header of a report nor its totals nor the reason of a refusal holds a line feed. -/
theorem Reply.Sound.newline_not_mem_display {reply : Reply} {toCommand : Prop}
    (h : reply.Sound toCommand) : '\n' ∉ reply.display.toList := by
  intro hmem
  cases reply with
  | message text =>
    obtain ⟨header, e, totals, hreports, -⟩ := h
    obtain ⟨s, hchars, -⟩ := Expression.ofText?_eq_some_iff.mp hreports.header_spells
    rw [display, hreports.text_eq, String.toList_append, String.toList_append,
      String.toList_append, ← hchars] at hmem
    simp only [List.mem_append] at hmem
    rcases hmem with ((hopen | hheader) | hclose) | htotals
    · exact absurd hopen (by decide)
    · exact absurd (by decide) (Form.single.ofChar_ne_other s '\n' hheader)
    · exact absurd hclose (by decide)
    · exact absurd (of_mem_totals htotals) (by decide)
  | error text =>
    obtain ⟨⟨error, herror, rfl⟩, -⟩ := h
    revert error
    decide

/-- The messages that got a reply, each with its reply. -/
def replied (messages : List Message) (answers : List Answer) : List (Message × Reply) :=
  (messages.zip answers).filterMap fun
    | (m, .ok (some reply)) => some (m, reply)
    | _ => none

theorem mem_of_mem_replied {messages : List Message} {answers : List Answer} {m : Message}
    {reply : Reply} (h : (m, reply) ∈ replied messages answers) :
    m ∈ messages ∧ .ok (some reply) ∈ answers := by
  rw [replied, List.mem_filterMap] at h
  obtain ⟨⟨m', answer⟩, hmem, hanswer⟩ := h
  split at hanswer
  · next heq =>
    cases heq
    cases hanswer
    exact List.of_mem_zip hmem
  · cases hanswer

theorem replied_cons (m : Message) (messages : List Message) (reply? : Option Reply)
    (answers : List Answer) :
    replied (m :: messages) (.ok reply? :: answers) =
      reply?.toList.map (m, ·) ++ replied messages answers := by
  cases reply? <;> rfl

/-! ### Answers -/

variable {G : Type} [WordSource G]

open RollM

namespace Settings

/-- A line with a message in it is answered as the message, and the reply becomes a line. -/
theorem answerBytes_of_message (settings : Settings) {line : List UInt8} {text : String}
    {m : Message} (hline : decodeText? line = some text) (hm : Message.ofLine? text = some m)
    (source : G) :
    ∃ reply? left, exec (settings.answer (.message m)) source = (.ok reply?, left) ∧
      settings.answerBytes line source = (.ok (reply?.map (Reply.line m.target)), left) := by
  obtain ⟨reply?, left, hreply, -⟩ := (settings.yields_answer (.message m)).exists_exec source
  refine ⟨reply?, left, hreply, ?_⟩
  have hexec : exec (settings.answerLine text) source =
      (.ok (reply?.map (Reply.line m.target)), left) := by
    rw [answer] at hreply
    simp only [answerLine, hm]
    rw [exec_bind_pure (settings.handle m) (Option.map (Reply.line m.target)), hreply]
    rfl
  simp only [answerBytes, hline, hexec]

/-- A line without a message gets no reply and leaves the source as it is. -/
theorem answerBytes_of_none (settings : Settings) {line : List UInt8} {text : String}
    (hline : decodeText? line = some text) (hm : Message.ofLine? text = none) (source : G) :
    settings.answerBytes line source = (.ok none, source) := by
  simp only [answerBytes, hline, answerLine, hm, exec_pure]

theorem feed_eq (settings : Settings) {lines : List (List UInt8)} {texts : List String}
    (h : lines.map decodeText? = texts.map some) (source : G) :
    settings.feed source lines =
      ⟨(replied (texts.filterMap Message.ofLine?)
        (settings.converse ((texts.filterMap Message.ofLine?).map .message) source).1).map
          fun (m, reply) => reply.line m.target, .finished⟩ := by
  induction lines generalizing texts source with
  | nil =>
    rw [List.map_nil, eq_comm, List.map_eq_nil_iff] at h
    rw [h]
    rfl
  | cons line lines ih =>
    cases texts with
    | nil => cases h
    | cons text texts =>
      obtain ⟨hline, hlines⟩ := List.cons.inj h
      cases hm : Message.ofLine? text with
      | none =>
        simp only [feed, settings.answerBytes_of_none hline hm, ih hlines,
          List.filterMap_cons_none hm]
        rfl
      | some m =>
        -- the later lines are answered from the source that this message leaves behind
        obtain ⟨reply?, left, hreply, hanswer⟩ := settings.answerBytes_of_message hline hm source
        simp only [feed, hanswer, ih hlines, List.filterMap_cons_some hm, List.map_cons, converse,
          hreply, replied_cons, List.map_append]
        cases reply? <;> rfl

theorem exists_answer_of_mem_converse {settings : Settings} {calls : List Call} {source : G}
    {answer : Answer} (h : answer ∈ (settings.converse calls source).1) :
    ∃ call, ∃ source : G, answer = (exec (settings.answer call) source).1 := by
  induction calls generalizing source with
  | nil => cases h
  | cons call calls ih =>
    rcases List.mem_cons.mp h with rfl | hlater
    · exact ⟨call, source, rfl⟩
    · exact ih hlater

/-- No answer of a conversation is a fault or holds a line feed. -/
theorem exists_reply?_of_mem_converse {settings : Settings} {calls : List Call} {source : G}
    {answer : Answer} (h : answer ∈ (settings.converse calls source).1) :
    ∃ reply?, answer = .ok reply? ∧ ∀ reply ∈ reply?, '\n' ∉ reply.display.toList := by
  obtain ⟨call, source, rfl⟩ := exists_answer_of_mem_converse h
  obtain ⟨reply?, hanswer, hanswered⟩ := settings.yields_answer call source
  refine ⟨reply?, hanswer, fun reply hreply => ?_⟩
  exact (hanswered.sound reply hreply).newline_not_mem_display

end Settings

/-! ### What is printed -/

theorem newline_not_mem_of_lines {input : List UInt8} {texts : List String} {m : Message}
    (h : (splitLines input).map decodeText? = texts.map some)
    (hm : m ∈ texts.filterMap Message.ofLine?) : '\n' ∉ m.target.toList := by
  obtain ⟨text, htext, hof⟩ := List.mem_filterMap.mp hm
  have hdecoded : some text ∈ (splitLines input).map decodeText? := h ▸ List.mem_map_of_mem htext
  obtain ⟨line, hline, hdecode⟩ := List.mem_map.mp hdecoded
  intro hmem
  refine newline_not_mem_of_decodeText? hdecode (lineFeed_not_mem_of_mem_splitLines hline) ?_
  rw [(Message.ofLine?_eq_some_iff.mp hof).toList_line]
  exact List.mem_append_left _ hmem

/-- From every stream of words, an input whose lines are texts is answered as a conversation about
the messages in its lines. No call of it ends in a fault. One line is printed for each reply, in the
order of the messages; it ends at its line feed, and the message in it is the target that the reply
goes to together with the reply. -/
theorem listen_framed (settings : Settings) (input : List UInt8) (stream : Stream)
    (texts : List String) (h : (splitLines input).map decodeText? = texts.map some) :
    let messages := texts.filterMap Message.ofLine?
    let answers := (settings.converse (messages.map .message) stream).1
    (∀ text m, Message.ofLine? text = some m ↔ m.StandsIn text) ∧
    (∀ answer ∈ answers, ∃ reply?, answer = .ok reply?) ∧
    ∃ lines : List String,
      listen settings input stream = .success (String.join (lines.map printedLine)) ∧
      (∀ line ∈ lines, '\n' ∉ line.toList) ∧
      List.Forall₂ (fun line (r : Message × Reply) =>
        (⟨r.1.target, r.2.display⟩ : Message).StandsIn line) lines (replied messages answers) := by
  intro messages answers
  have hstands : ∀ r ∈ replied messages answers,
      (⟨r.1.target, r.2.display⟩ : Message).StandsIn (r.2.line r.1.target) := by
    rintro ⟨m, reply⟩ hr
    obtain ⟨text, -, hof⟩ := List.mem_filterMap.mp (mem_of_mem_replied hr).1
    exact Reply.standsIn_line (Message.ofLine?_eq_some_iff.mp hof).space_not_mem reply
  refine ⟨fun _ _ => Message.ofLine?_eq_some_iff, fun answer hanswer => ?_,
    (replied messages answers).map fun r => r.2.line r.1.target, ?_, ?_, ?_⟩
  · obtain ⟨reply?, hreply, -⟩ := Settings.exists_reply?_of_mem_converse hanswer
    exact ⟨reply?, hreply⟩
  · rw [listen, settings.feed_eq h]
    rfl
  · intro line hline
    obtain ⟨⟨m, reply⟩, hr, rfl⟩ := List.mem_map.mp hline
    obtain ⟨hm, hanswer⟩ := mem_of_mem_replied hr
    obtain ⟨_, heq, hreply⟩ := Settings.exists_reply?_of_mem_converse hanswer
    cases heq
    rw [(hstands _ hr).toList_line, List.mem_append, List.mem_cons]
    rintro (htarget | hspace | hdisplay)
    · exact newline_not_mem_of_lines h hm htarget
    · exact absurd hspace (by decide)
    · exact hreply reply rfl hdisplay
  · rw [List.forall₂_map_left_iff, List.forall₂_same]
    exact hstands

/-- Lines that end in different ways or not at all, one of them without a space and one with nothing
in front of it. -/
theorem listen_framed_stray_returns :
    let input := "#inn !roll 0d6+3\r\nquiet\n !roll\nan\rn !roll 2\r".toByteArray.data.toList
    let messages : List Message := [⟨"#inn", "!roll 0d6+3"⟩, ⟨"", "!roll"⟩, ⟨"an\rn", "!roll 2\r"⟩]
    let stream := Stream.ofSeed 7
    let answers := (Settings.default.converse (messages.map .message) stream).1
    ((splitLines input).map decodeText? =
      ["#inn !roll 0d6+3", "quiet", " !roll", "an\rn !roll 2\r"].map some) ∧
    (∀ answer ∈ answers, ∃ reply?, answer = .ok reply?) ∧
    ∃ lines : List String,
      listen Settings.default input stream = .success (String.join (lines.map printedLine)) ∧
      (∀ line ∈ lines, '\n' ∉ line.toList) ∧
      List.Forall₂ (fun line (r : Message × Reply) =>
        (⟨r.1.target, r.2.display⟩ : Message).StandsIn line) lines (replied messages answers) := by
  intro input messages stream answers
  have hlines : (splitLines input).map decodeText? =
      ["#inn !roll 0d6+3", "quiet", " !roll", "an\rn !roll 2\r"].map some := by
    decide
  exact ⟨hlines, (listen_framed Settings.default input stream _ hlines).2⟩

end ChatDice
