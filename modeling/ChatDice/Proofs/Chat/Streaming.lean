/-
A feed is answered as it comes in.

A line is answered from itself and from what the lines before it have left of the stream of words.
So an input that ends with a whole line is answered the same, whatever comes behind it, and the
first line that is no text ends a feed without a word about itself or anything behind it.

* **`splitLines_append`**, **`exists_append_of_splitLines_eq`** — an input that is cut behind a line
  feed is cut between two lines, and between any two lines it can be cut so;
* **`Settings.feed_append`**, **`Settings.exists_feed_append`** — what lines say, and what they leave
  to the lines behind them;
* **`StopsAt`**, **`exists_stopsAt`** — the place at which a feed stops;
* **`Settings.hearAll_eq_feed`**, **`listen_eq_hearAll`** — pieces that are answered as they come are
  answered as the whole input, wherever it is cut;
* **`listen_streams`** — what is printed about an input in two parts, and the exit code.
-/
import ChatDice.Proofs.Chat.Feed

namespace ChatDice

/-! ### Texts -/

/-- The bytes of a line are the encoding of some characters. -/
def IsText (line : List UInt8) : Prop :=
  line.toByteArray.IsValidUTF8

instance (line : List UInt8) : Decidable (IsText line) :=
  inferInstanceAs (Decidable line.toByteArray.IsValidUTF8)

theorem decodeText?_eq_none_iff {line : List UInt8} : decodeText? line = none ↔ ¬ IsText line := by
  rw [decodeText?, String.fromUTF8?, IsText]
  split
  · next h => simp [h]
  · next h => simp [h]

theorem exists_decodeText?_of_isText {line : List UInt8} (h : IsText line) :
    ∃ text, decodeText? line = some text :=
  Option.ne_none_iff_exists'.mp fun hnone => decodeText?_eq_none_iff.mp hnone h

/-! ### Inputs in two parts -/

/-- Behind these bytes a new line begins. -/
def EndsLine (bytes : List UInt8) : Prop :=
  bytes = [] ∨ bytes.getLast? = some lineFeed

theorem EndsLine.append {front rest : List UInt8} (hfront : EndsLine front) (hrest : EndsLine rest) :
    EndsLine (front ++ rest) := by
  rcases hrest with rfl | hlast
  · rwa [List.append_nil]
  · right
    rw [List.getLast?_append, hlast, Option.some_or]

theorem endsLine_concat (front : List UInt8) : EndsLine (front ++ [lineFeed]) :=
  .inr List.getLast?_concat

theorem splitLinesFrom_append (line front rest : List UInt8) :
    splitLinesFrom line (front ++ [lineFeed] ++ rest) =
      splitLinesFrom line (front ++ [lineFeed]) ++ splitLines rest := by
  induction front generalizing line with
  | nil => rfl
  | cons b front ih =>
    simp only [List.cons_append, splitLinesFrom]
    split
    · rw [ih]
      rfl
    · exact ih (b :: line)

theorem splitLines_append {front : List UInt8} (h : EndsLine front) (rest : List UInt8) :
    splitLines (front ++ rest) = splitLines front ++ splitLines rest := by
  rcases h with rfl | hlast
  · rfl
  · obtain ⟨bytes, rfl⟩ := List.getLast?_eq_some_iff.mp hlast
    exact splitLinesFrom_append [] bytes rest

/-- A line with further lines behind it ends with a line feed. -/
theorem exists_append_of_splitLinesFrom_eq_cons {start bytes line : List UInt8}
    {later : List (List UInt8)} (h : splitLinesFrom start bytes = line :: later) (hne : later ≠ []) :
    ∃ front rest, front ++ [lineFeed] ++ rest = bytes ∧
      splitLinesFrom start (front ++ [lineFeed]) = [line] ∧ splitLines rest = later := by
  induction bytes generalizing start with
  | nil =>
    rw [splitLinesFrom] at h
    split at h
    · cases h
    · exact absurd (List.cons.inj h).2.symm hne
  | cons b bytes ih =>
    rw [splitLinesFrom] at h
    split at h
    · next hb =>
      obtain ⟨hline, hlater⟩ := List.cons.inj h
      refine ⟨[], bytes, by rw [hb]; rfl, ?_, hlater⟩
      rw [List.nil_append, splitLinesFrom, if_pos rfl, hline]
      rfl
    · next hb =>
      obtain ⟨front, rest, hbytes, hfront, hrest⟩ := ih h
      refine ⟨b :: front, rest, by rw [← hbytes]; rfl, ?_, hrest⟩
      rw [List.cons_append, splitLinesFrom, if_neg hb]
      exact hfront

/-- Between any two lines an input can be cut. -/
theorem exists_append_of_splitLines_eq {bytes : List UInt8} {before later : List (List UInt8)}
    (h : splitLines bytes = before ++ later) (hne : later ≠ []) :
    ∃ front rest, front ++ rest = bytes ∧ EndsLine front ∧ splitLines front = before ∧
      splitLines rest = later := by
  induction before generalizing bytes with
  | nil => exact ⟨[], bytes, rfl, .inl rfl, rfl, h⟩
  | cons line before ih =>
    have hmore : before ++ later ≠ [] := fun hnil => hne (List.append_eq_nil_iff.mp hnil).2
    obtain ⟨first, others, rfl, hfirst, hothers⟩ := exists_append_of_splitLinesFrom_eq_cons h hmore
    obtain ⟨front, rest, rfl, hends, hfront, hrest⟩ := ih hothers
    refine ⟨first ++ [lineFeed] ++ front, rest, List.append_assoc .., ?_, ?_, hrest⟩
    · exact (endsLine_concat first).append hends
    · rw [splitLines_append (endsLine_concat first), hfront]
      exact congrArg (· ++ before) hfirst

/-! ### Where a feed stops -/

/-- The first line of `bytes` that is no text begins behind `front`. -/
structure StopsAt (bytes front : List UInt8) : Prop where
  endsLine : EndsLine front
  texts : ∀ line ∈ splitLines front, IsText line
  stops : ∃ rest line later, front ++ rest = bytes ∧ splitLines rest = line :: later ∧ ¬ IsText line

theorem exists_stopsAt {bytes : List UInt8} (h : ∃ line ∈ splitLines bytes, ¬ IsText line) :
    ∃ front, StopsAt bytes front := by
  obtain ⟨line, hmem, hline⟩ := h
  have hfound : ((splitLines bytes).find? fun line => ¬ IsText line).isSome :=
    List.find?_isSome.mpr ⟨line, hmem, decide_eq_true hline⟩
  obtain ⟨bad, hbad⟩ := Option.isSome_iff_exists.mp hfound
  obtain ⟨hstop, before, later, hlines, hbefore⟩ := List.find?_eq_some_iff_append.mp hbad
  obtain ⟨front, rest, happend, hends, hfront, hrest⟩ :=
    exists_append_of_splitLines_eq hlines (List.cons_ne_nil bad later)
  refine ⟨front, hends, fun line hline => ?_, rest, bad, later, happend, hrest,
    of_decide_eq_true hstop⟩
  simpa using hbefore line (hfront ▸ hline)

/-! ### Answers -/

variable {G : Type} [WordSource G]

namespace Settings

theorem exists_answerBytes (settings : Settings) {line : List UInt8} (h : IsText line) (source : G) :
    ∃ said? left, settings.answerBytes line source = (.ok said?, left) := by
  obtain ⟨text, htext⟩ := exists_decodeText?_of_isText h
  cases hm : Message.ofLine? text with
  | none => exact ⟨none, source, settings.answerBytes_of_none htext hm source⟩
  | some m =>
    obtain ⟨reply?, left, -, hanswer⟩ := settings.answerBytes_of_message htext hm source
    exact ⟨_, left, hanswer⟩

theorem exists_answerLines (settings : Settings) {lines : List (List UInt8)}
    (h : ∀ line ∈ lines, IsText line) (source : G) :
    ∃ said left, settings.answerLines source lines = (said, .ok left) := by
  induction lines generalizing source with
  | nil => exact ⟨[], source, rfl⟩
  | cons line lines ih =>
    obtain ⟨said?, between, hanswer⟩ :=
      settings.exists_answerBytes (h line List.mem_cons_self) source
    obtain ⟨said, left, hlater⟩ := ih (fun line hline => h line (List.mem_cons_of_mem _ hline)) between
    exact ⟨said?.toList ++ said, left, by simp only [answerLines, hanswer, hlater]⟩

/-- Lines that are answered leave a source behind, from which the later ones are answered. -/
theorem feed_append (settings : Settings) (source : G) (lines later : List (List UInt8)) :
    settings.feed source (lines ++ later) =
      match settings.answerLines source lines with
      | (said, .error ending) => ⟨said, ending⟩
      | (said, .ok left) =>
        ⟨said ++ (settings.feed left later).said, (settings.feed left later).ending⟩ := by
  induction lines generalizing source with
  | nil => rfl
  | cons line lines ih =>
    simp only [List.cons_append, feed, answerLines]
    cases hanswer : settings.answerBytes line source with
    | mk result left =>
      cases result with
      | error ending => rfl
      | ok reply =>
        simp only [ih]
        cases hlater : settings.answerLines left lines with
        | mk said result =>
          cases result with
          | error ending => rfl
          | ok left => simp only [List.append_assoc]

/-- Lines of text say the same whatever lines are behind them, and these are answered from the
source that the former leave behind. -/
theorem exists_feed_append (settings : Settings) {lines : List (List UInt8)}
    (h : ∀ line ∈ lines, IsText line) (source : G) :
    ∃ (said : List String) (left : G), ∀ later, settings.feed source (lines ++ later) =
      ⟨said ++ (settings.feed left later).said, (settings.feed left later).ending⟩ := by
  obtain ⟨said, left, hanswer⟩ := settings.exists_answerLines h source
  refine ⟨said, left, fun later => ?_⟩
  rw [settings.feed_append, hanswer]

theorem ending_feed_of_isText (settings : Settings) {lines : List (List UInt8)}
    (h : ∀ line ∈ lines, IsText line) (source : G) :
    (settings.feed source lines).ending = .finished := by
  obtain ⟨said, left, hfeed⟩ := settings.exists_feed_append h source
  have hall := hfeed []
  rw [List.append_nil] at hall
  rw [hall]
  rfl

theorem feed_of_not_isText (settings : Settings) {line : List UInt8} (h : ¬ IsText line)
    (later : List (List UInt8)) (source : G) :
    settings.feed source (line :: later) = ⟨[], .undecodable⟩ := by
  simp only [feed, answerBytes, decodeText?_eq_none_iff.mpr h]

end Settings

/-! ### Inputs in pieces -/

/-- A piece completes some lines, and what it holds of the next line is the start of what follows. -/
theorem splitLinesFrom_append_piece (line piece rest : List UInt8) :
    splitLinesFrom line (piece ++ rest) =
      (completeLines line piece).1 ++ splitLinesFrom (completeLines line piece).2 rest := by
  induction piece generalizing line with
  | nil => rfl
  | cons b piece ih =>
    simp only [List.cons_append, splitLinesFrom, completeLines]
    by_cases hb : b = lineFeed
    · simp only [if_pos hb, ih, List.cons_append]
    · simp only [if_neg hb, ih]

/-- A cut between the two bytes that end a line leaves the line as it is. -/
example : completeLines [] [0x61, 0x0d] = ([], [0x0d, 0x61]) ∧
    completeLines [0x0d, 0x61] [0x0a, 0x62] = ([[0x61]], [0x62]) := by decide

section

variable (settings : Settings)

/-- Pieces are answered as what they make together, behind what has come of the current line. -/
theorem Settings.hearAll_eq_feed (l : Listener G) (pieces : List (List UInt8)) :
    settings.hearAll l pieces = settings.feed l.source (splitLinesFrom l.line pieces.flatten) := by
  induction pieces generalizing l with
  | nil => rfl
  | cons piece pieces ih =>
    rw [List.flatten_cons, splitLinesFrom_append_piece, settings.feed_append]
    simp only [hearAll, hear]
    cases settings.answerLines l.source (completeLines l.line piece).1 with
    | mk said result =>
      cases result with
      | error ending => rfl
      | ok left => simp only [Except.map, ih]

/-- However the input comes in pieces, what is said about it and how it ends is the same. -/
theorem listen_eq_hearAll (pieces : List (List UInt8)) (stream : Stream) :
    listen settings pieces.flatten stream =
      (settings.hearAll ⟨[], stream⟩ pieces).ending.outcome
        (String.join ((settings.hearAll ⟨[], stream⟩ pieces).said.map printedLine)) := by
  rw [listen, settings.hearAll_eq_feed, splitLines]

end

/-! ### What is printed -/

theorem FeedEnd.output_outcome (ending : FeedEnd) (output : String) :
    (ending.outcome output).output = output := by
  cases ending <;> rfl

/-- What is printed about an input in two parts, the first of which ends with a line and holds
texts only: what is printed about the first part comes first, and the second part is answered from
the stream that the first one leaves behind. -/
theorem exists_listen_append (settings : Settings) {front : List UInt8} (hends : EndsLine front)
    (htexts : ∀ line ∈ splitLines front, IsText line) (stream : Stream) :
    ∃ left, ∀ rest,
      (listen settings (front ++ rest) stream).output =
        (listen settings front stream).output ++ (listen settings rest left).output ∧
      (listen settings (front ++ rest) stream).code = (listen settings rest left).code := by
  obtain ⟨said, left, hfeed⟩ := settings.exists_feed_append htexts stream
  have hfront := hfeed []
  rw [List.append_nil] at hfront
  refine ⟨left, fun rest => ?_⟩
  simp only [listen, FeedEnd.output_outcome, splitLines_append hends, hfeed, hfront,
    List.map_append, String.join_append]
  constructor
  · simp [Settings.feed]
  · cases (settings.feed left (splitLines rest)).ending <;> rfl

theorem listen_of_stopsAt (settings : Settings) {bytes front : List UInt8} (h : StopsAt bytes front)
    (stream : Stream) :
    (listen settings bytes stream).output = (listen settings front stream).output ∧
      (listen settings bytes stream).code = failureCode := by
  obtain ⟨rest, line, later, rfl, hrest, hline⟩ := h.stops
  obtain ⟨left, hlisten⟩ := exists_listen_append settings h.endsLine h.texts stream
  have hstop : listen settings rest left = .failure "" undecodableMessage := by
    simp only [listen, hrest, settings.feed_of_not_isText hline]
    rfl
  rw [(hlisten rest).1, (hlisten rest).2, hstop]
  exact ⟨String.append_empty, rfl⟩

theorem code_listen_of_isText (settings : Settings) {bytes : List UInt8}
    (h : ∀ line ∈ splitLines bytes, IsText line) (stream : Stream) :
    (listen settings bytes stream).code = 0 := by
  rw [listen, settings.ending_feed_of_isText h]
  rfl

/-- Let `front` be an input that ends with a line, or an empty one, all of whose lines are texts.
Whatever comes behind it, what is printed about `front` alone is printed first. The run fails if
and only if a later line is no text, and succeeds otherwise. If it fails, no more is printed than
about the lines in front of the first one that is no text. -/
theorem listen_streams (settings : Settings) {front : List UInt8} (hends : EndsLine front)
    (htexts : ∀ line ∈ splitLines front, IsText line) (rest : List UInt8) (stream : Stream) :
    (∃ more, (listen settings (front ++ rest) stream).output =
      (listen settings front stream).output ++ more) ∧
    ((listen settings (front ++ rest) stream).code = 1 ↔ ∃ line ∈ splitLines rest, ¬ IsText line) ∧
    ((listen settings (front ++ rest) stream).code = 0 ↔ ∀ line ∈ splitLines rest, IsText line) ∧
    ((∃ line ∈ splitLines rest, ¬ IsText line) → ∃ next, StopsAt rest next) ∧
    ∀ next, StopsAt rest next →
      (listen settings (front ++ rest) stream).output =
        (listen settings (front ++ next) stream).output := by
  obtain ⟨left, hlisten⟩ := exists_listen_append settings hends htexts stream
  rw [(hlisten rest).1, (hlisten rest).2]
  have hsucceeds (h : ∀ line ∈ splitLines rest, IsText line) : (listen settings rest left).code = 0 :=
    code_listen_of_isText settings h left
  have hfails (h : ∃ line ∈ splitLines rest, ¬ IsText line) : (listen settings rest left).code = 1 := by
    obtain ⟨next, hnext⟩ := exists_stopsAt h
    exact (listen_of_stopsAt settings hnext left).2
  refine ⟨⟨_, rfl⟩, ⟨fun hcode => ?_, hfails⟩, ⟨fun hcode => ?_, hsucceeds⟩, exists_stopsAt, ?_⟩
  · by_contra! hno
    rw [hsucceeds hno] at hcode
    cases hcode
  · by_contra! hno
    rw [hfails hno] at hcode
    cases hcode
  · intro next hnext
    rw [(hlisten next).1, (listen_of_stopsAt settings hnext left).1]

/-- The first part ends with a carriage return and a line feed. Of the second part, the second line
is no text, and there are commands in front of it and behind it. -/
theorem listen_streams_over_stray_byte :
    let front := "#inn !roll 0d6+3\r\n".toByteArray.data.toList
    let next := "bob !roll\n".toByteArray.data.toList
    let rest := next ++ [0x62, 0x20, 0xff, 0x0a] ++ "bob !roll 0d6+9".toByteArray.data.toList
    let stream := Stream.ofSeed 7
    (EndsLine front ∧ ∀ line ∈ splitLines front, IsText line) ∧
    (∃ more, (listen Settings.default (front ++ rest) stream).output =
      (listen Settings.default front stream).output ++ more) ∧
    (listen Settings.default (front ++ rest) stream).code = 1 ∧
    (listen Settings.default (front ++ rest) stream).output =
      (listen Settings.default (front ++ next) stream).output := by
  intro front next rest stream
  have hends : EndsLine front := .inr (by decide)
  have htexts : ∀ line ∈ splitLines front, IsText line := by decide
  have hlines : splitLines rest =
      ["bob !roll".toByteArray.data.toList, [0x62, 0x20, 0xff],
        "bob !roll 0d6+9".toByteArray.data.toList] := by
    decide
  have hbad : ¬ IsText [0x62, 0x20, 0xff] := by decide
  have hstops : StopsAt rest next :=
    ⟨.inr (by decide), by decide, [0x62, 0x20, 0xff, 0x0a] ++ "bob !roll 0d6+9".toByteArray.data.toList,
      [0x62, 0x20, 0xff], ["bob !roll 0d6+9".toByteArray.data.toList], by decide, by decide, hbad⟩
  obtain ⟨hmore, hcode, -, -, hnothing⟩ := listen_streams Settings.default hends htexts rest stream
  refine ⟨⟨hends, htexts⟩, hmore, hcode.mpr ⟨_, ?_, hbad⟩, hnothing next hstops⟩
  rw [hlines]
  exact List.mem_cons_of_mem _ List.mem_cons_self

end ChatDice
