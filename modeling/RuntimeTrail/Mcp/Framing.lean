import RuntimeTrail.Mcp.Protocol

/-!
# Frames

A frame is a message as a client writes it: header lines, one of which declares
the length of the body, a blank line, and the body.

* **lines** — `readLine_line`, `trimLine_line`: a line is read up to its feed and
  comes back without its ending;
* **headers** — `readHeaders_head`: the declared length, and what is behind the
  blank line;
* **messages** — `readMessage_bytes`, and `readMessage_nil` at the end;
* **the writer's own** — `written`: what `writeMessage` writes is a frame.
-/

namespace RuntimeTrail

open Library

namespace Mcp

/-! ## Lines -/

/-- A header line: its text, and whether a carriage return stands before its line feed. -/
structure Line where
  text : List Char
  carriage : Bool

/-- The end of a line. -/
def ending (carriage : Bool) : List Char := if carriage then ['\r', '\n'] else ['\n']

def Line.bytes (line : Line) : List UInt8 := utf8Bytes (line.text ++ ending line.carriage)

/-- A line of text: something, without a line feed, that does not end like a line does. -/
structure Line.Plain (line : Line) : Prop where
  nonempty : line.text ≠ []
  noFeed : '\n' ∉ line.text
  noReturn : ∀ h : line.text ≠ [], line.text.getLast h ≠ '\r'

theorem readUntil_append {line rest : List UInt8} (h : 10 ∉ line) :
    readUntil (line ++ 10 :: rest) = (line ++ [10], rest) := by
  induction line with
  | nil => rfl
  | cons byte line ih =>
    obtain ⟨hbyte, hline⟩ := not_or.mp (List.mem_cons.not.mp h)
    rw [List.cons_append, readUntil, if_neg (Ne.symm hbyte), ih hline]
    rfl

theorem feed_mem_iff {text : List Char} : (10 : UInt8) ∈ utf8Bytes text ↔ '\n' ∈ text := by
  rw [mem_utf8Bytes_iff (by decide)]
  constructor
  · rintro ⟨c, hc, hten⟩
    have hfeed : c = '\n' := by
      rw [← Char.ofNat_toNat c, hten]
      rfl
    exact hfeed ▸ hc
  · exact fun h => ⟨'\n', h, rfl⟩

/-- The last byte of a line is its feed, and the only one. -/
theorem readLine_text {text : List Char} (hfeed : '\n' ∉ text) (carriage : Bool)
    (rest : List UInt8) : readLine (utf8Bytes (text ++ ending carriage) ++ rest) =
      .ok (text ++ ending carriage, rest) := by
  obtain ⟨before, hending, hbefore⟩ : ∃ before, ending carriage = before ++ ['\n'] ∧
      '\n' ∉ before := by
    cases carriage with
    | true => exact ⟨['\r'], rfl, by decide⟩
    | false => exact ⟨[], rfl, by decide⟩
  have hbytes : (10 : UInt8) ∉ utf8Bytes (text ++ before) := by
    rw [feed_mem_iff, List.mem_append]
    exact fun h => h.elim hfeed hbefore
  have hsplit : readUntil (utf8Bytes (text ++ ending carriage) ++ rest) =
      (utf8Bytes (text ++ ending carriage), rest) := by
    have hwhole : utf8Bytes (text ++ ending carriage) = utf8Bytes (text ++ before) ++ [10] := by
      rw [hending, ← List.append_assoc, utf8Bytes_append]
      rfl
    rw [hwhole, List.append_assoc]
    exact readUntil_append hbytes
  rw [readLine, hsplit, decodeUtf8_utf8Bytes]

theorem readLine_line {line : Line} (h : line.Plain) (rest : List UInt8) :
    readLine (line.bytes ++ rest) = .ok (line.text ++ ending line.carriage, rest) :=
  readLine_text h.noFeed line.carriage rest

theorem trimLine_append (text : List Char) (carriage : Bool) :
    trimLine (text ++ ending carriage) = trimLine text := by
  unfold trimLine ending
  cases carriage with
  | true =>
    rw [if_pos rfl, show text ++ ['\r', '\n'] = text ++ ['\r'] ++ ['\n'] by simp,
      List.rdropWhile_concat_pos _ _ _ (by rfl), List.rdropWhile_concat_pos _ _ _ (by rfl)]
  | false => rw [if_neg (by simp), List.rdropWhile_concat_pos _ _ _ (by rfl)]

/-- A line comes back without its ending. -/
theorem trimLine_line {line : Line} (h : line.Plain) :
    trimLine (line.text ++ ending line.carriage) = line.text := by
  rw [trimLine_append, trimLine, List.rdropWhile_eq_self_iff]
  intro hne hlast
  rw [Bool.or_eq_true, beq_iff_eq, beq_iff_eq] at hlast
  rcases hlast with hreturn | hfeed
  · exact h.noReturn hne hreturn
  · exact h.noFeed (hfeed ▸ List.getLast_mem hne)

/-! ## Headers -/

/-- A prefix is stripped exactly where it stands. -/
theorem isPrefixOf?_eq_some_iff {α : Type} [DecidableEq α] {l m t : List α} :
    l.isPrefixOf? m = some t ↔ m = l ++ t := by
  induction l generalizing m with
  | nil => simp [List.isPrefixOf?, eq_comm]
  | cons a l ih =>
    cases m with
    | nil => simp [List.isPrefixOf?]
    | cons b m =>
      rw [List.isPrefixOf?, List.cons_append, List.cons.injEq]
      by_cases hab : a = b
      · simp [hab, ih]
      · simp [hab, Ne.symm hab]

/-- No line is empty: its feed is in it. -/
theorem isEmpty_text (text : List Char) (carriage : Bool) (rest : List UInt8) :
    (utf8Bytes (text ++ ending carriage) ++ rest).isEmpty = false := by
  have hfeed : (10 : UInt8) ∈ utf8Bytes (text ++ ending carriage) := by
    rw [mem_utf8Bytes_iff (by decide)]
    refine ⟨'\n', List.mem_append_right _ ?_, rfl⟩
    cases carriage <;> decide
  rw [List.isEmpty_eq_false_iff]
  exact List.append_ne_nil_of_left_ne_nil (List.ne_nil_of_mem hfeed) rest

/-- A header of another name is passed over. -/
theorem readingStep_other {line : Line} (h : line.Plain) (hother : ¬ contentLength <+: line.text)
    (length : Option Nat) (rest : List UInt8) :
    readingStep (.headers length (line.bytes ++ rest)) = some (.headers length rest) := by
  have hstrip : contentLength.isPrefixOf? line.text = none := by
    rw [Option.eq_none_iff_forall_not_mem]
    intro t ht
    exact hother ⟨t, (isPrefixOf?_eq_some_iff.mp ht).symm⟩
  have hinput : (line.bytes ++ rest).isEmpty = false := isEmpty_text _ _ rest
  simp only [readingStep, readLine_line h, trimLine_line h, hinput, hstrip]
  simp [h.nonempty]

/-- The blanks a header's value may stand between. -/
def Blank (text : List Char) : Prop := ∀ c ∈ text, c = ' ' ∨ c = '\t'

/-- The header that declares a length, with blanks around it. -/
structure Declares (line : Line) (length : Nat) : Prop where
  plain : line.Plain
  value : ∃ before behind, Blank before ∧ Blank behind ∧
    line.text = contentLength ++ (before ++ Nat.toDigits 10 length ++ behind)

theorem parseUsize_toDigits {n : Nat} (h : n ≤ u64Max) :
    parseUsize (Nat.toDigits 10 n) = some n := by
  have hdigits : ∀ c ∈ Nat.toDigits 10 n, c.isDigit = true := fun c hc =>
    Nat.isDigit_of_mem_toDigits (by decide) (by decide) hc
  have hplus : (Nat.toDigits 10 n).head? ≠ some '+' := by
    intro hhead
    exact absurd (hdigits '+' (List.mem_of_mem_head? hhead)) (by decide)
  have hall : (Nat.toDigits 10 n).all Char.isDigit = true := List.all_eq_true.mpr hdigits
  rw [parseUsize]
  simp [hplus, hall, Nat.toDigits_ne_nil, Nat.ofDigitChars_ten_toDigits, h]

/-- The length header is read as the length it declares. -/
theorem readingStep_declares {line : Line} {declared : Nat} (h : Declares line declared)
    (hbound : declared ≤ u64Max) (length : Option Nat) (rest : List UInt8) :
    readingStep (.headers length (line.bytes ++ rest)) = some (.headers (some declared) rest) := by
  obtain ⟨hplain, before, behind, hbefore, hbehind, htext⟩ := h
  have hblank : ∀ text : List Char, Blank text → ∀ c ∈ text, Decode.isWhitespace c = true := by
    intro text htext c hc
    rcases htext c hc with rfl | rfl
    · rfl
    · rfl
  have hdigit : ∀ c ∈ Nat.toDigits 10 declared, Decode.isWhitespace c = false := by
    intro c hc
    have hdigit := Nat.isDigit_of_mem_toDigits (by decide) (by decide) hc
    rw [Char.isDigit, Bool.and_eq_true, decide_eq_true_eq, decide_eq_true_eq] at hdigit
    have hlow : 48 ≤ c.toNat := hdigit.1
    have hhigh : c.toNat ≤ 57 := hdigit.2
    simp only [Decode.isWhitespace, Bool.or_eq_false_iff, Bool.and_eq_false_iff,
      decide_eq_false_iff_not, beq_eq_false_iff_ne]
    omega
  have hstrip := isPrefixOf?_eq_some_iff.mpr htext
  have hinput : (line.bytes ++ rest).isEmpty = false := isEmpty_text _ _ rest
  simp only [readingStep, readLine_line hplain, trimLine_line hplain, hinput, hstrip,
    trim_append _ (hblank _ hbefore) (hblank _ hbehind) hdigit, parseUsize_toDigits hbound]
  simp [hplain.nonempty]

/-- A blank line ends the headers. -/
theorem readingStep_blank (carriage : Bool) (length : Option Nat) (rest : List UInt8) :
    readingStep (.headers length (utf8Bytes (ending carriage) ++ rest)) =
      some (.stopped (.ok (.blank length rest))) := by
  have hline := @readLine_text [] (by simp) carriage rest
  have hinput := isEmpty_text [] carriage rest
  have htrim := trimLine_append [] carriage
  rw [List.nil_append] at hline hinput htrim
  simp only [readingStep, hline, hinput, htrim]
  rfl

/-! ## Frames -/

/-- A message as it is written. -/
structure Frame where
  before : List Line
  length : Line
  behind : List Line
  blank : Bool
  body : List UInt8

namespace Frame

/-- The frame's headers and its blank line. -/
def head (f : Frame) : List UInt8 :=
  f.before.flatMap Line.bytes ++ (f.length.bytes ++ (f.behind.flatMap Line.bytes ++
    utf8Bytes (ending f.blank)))

def bytes (f : Frame) : List UInt8 := f.head ++ f.body

/-- A well-framed message: one header declares the length of the body, and no other has its
name. -/
structure WellFramed (f : Frame) : Prop where
  declares : Declares f.length f.body.length
  others : ∀ line ∈ f.before ++ f.behind, line.Plain ∧ ¬ contentLength <+: line.text

end Frame

/-- Headers of other names are passed over. -/
theorem run_others {lines : List Line} (h : ∀ line ∈ lines, line.Plain ∧
    ¬ contentLength <+: line.text) (length : Option Nat) (rest : List UInt8) :
    readingLoop.run (.headers length (lines.flatMap Line.bytes ++ rest)) =
      readingLoop.run (.headers length rest) := by
  induction lines with
  | nil => rfl
  | cons line lines ih =>
    obtain ⟨⟨hplain, hother⟩, hlines⟩ := List.forall_mem_cons.mp h
    have hstep : readingLoop.step (.headers length
        (line.bytes ++ (lines.flatMap Line.bytes ++ rest))) =
          some (.headers length (lines.flatMap Line.bytes ++ rest)) :=
      readingStep_other hplain hother length _
    rw [List.flatMap_cons, List.append_assoc, Loop.run_of_some hstep, ih hlines]

/-- **The headers of a frame** are read as its body's length, up to the body. -/
theorem readHeaders_head {f : Frame} (h : f.WellFramed) (hbound : f.body.length ≤ u64Max)
    (rest : List UInt8) :
    readHeaders (f.head ++ rest) = .ok (.blank (some f.body.length) rest) := by
  have hbefore : ∀ line ∈ f.before, line.Plain ∧ ¬ contentLength <+: line.text := fun line hline =>
    h.others line (List.mem_append_left _ hline)
  have hbehind : ∀ line ∈ f.behind, line.Plain ∧ ¬ contentLength <+: line.text := fun line hline =>
    h.others line (List.mem_append_right _ hline)
  have hrun : readingLoop.run (.headers none (f.head ++ rest)) =
      .stopped (.ok (.blank (some f.body.length) rest)) := by
    have hdeclares : readingLoop.step (.headers none
        (f.length.bytes ++ (f.behind.flatMap Line.bytes ++ (utf8Bytes (ending f.blank) ++ rest)))) =
          some (.headers (some f.body.length)
            (f.behind.flatMap Line.bytes ++ (utf8Bytes (ending f.blank) ++ rest))) :=
      readingStep_declares h.declares hbound none _
    have hblank : readingLoop.step (.headers (some f.body.length)
        (utf8Bytes (ending f.blank) ++ rest)) =
          some (.stopped (.ok (.blank (some f.body.length) rest))) :=
      readingStep_blank f.blank _ rest
    simp only [Frame.head, List.append_assoc]
    rw [run_others hbefore, Loop.run_of_some hdeclares, run_others hbehind,
      Loop.run_of_some hblank, Loop.run_of_none rfl]
  rw [readHeaders, hrun]

/-- What a body is read as. -/
def outcomeOf (codec : Codec) (body : List UInt8) : ReadOutcome :=
  match codec.fromSlice body with
  | some message => .message message
  | none => .parseError

theorem readMessage_blank (codec : Codec) {input behind : List UInt8} {length : Nat}
    (h : readHeaders input = .ok (.blank (some length) behind))
    (hceiling : length ≤ maxMessageBytes) (hbody : length ≤ behind.length) :
    readMessage codec input = .ok (outcomeOf codec (behind.take length), behind.drop length) := by
  rw [readMessage, h]
  dsimp only
  rw [if_neg (not_lt.mpr hceiling), if_neg (not_lt.mpr hbody), outcomeOf]
  cases codec.fromSlice (behind.take length) with
  | some message => rfl
  | none => rfl

/-- **A frame is read whole**, and nothing behind it. -/
theorem readMessage_bytes (codec : Codec) {f : Frame} (h : f.WellFramed)
    (hceiling : f.body.length ≤ maxMessageBytes) (rest : List UInt8) :
    readMessage codec (f.bytes ++ rest) = .ok (outcomeOf codec f.body, rest) := by
  have hhead := readHeaders_head h (hceiling.trans (by decide)) (f.body ++ rest)
  have hbody : f.body.length ≤ (f.body ++ rest).length := by
    rw [List.length_append]
    exact Nat.le_add_right _ _
  rw [Frame.bytes, List.append_assoc, readMessage_blank codec hhead hceiling hbody,
    List.take_left, List.drop_left]

/-- A body over the ceiling ends the session. -/
theorem readMessage_over (codec : Codec) {f : Frame} (h : f.WellFramed)
    (hceiling : maxMessageBytes < f.body.length) (hbound : f.body.length ≤ u64Max)
    (rest : List UInt8) : readMessage codec (f.bytes ++ rest) =
      .error ⟨.invalidData, "message exceeds the 16777216-byte framing ceiling"⟩ := by
  rw [readMessage, Frame.bytes, List.append_assoc, readHeaders_head h hbound]
  dsimp only
  rw [if_pos hceiling]

/-- Between messages the input may end. -/
theorem readMessage_nil (codec : Codec) : readMessage codec [] = .ok (.eof, []) := by
  have hline : readLine [] = .ok ([], []) := by
    have hdecode := decodeUtf8_utf8Bytes []
    rw [readLine, show (readUntil []).1 = utf8Bytes [] from rfl, hdecode]
    rfl
  have hstep : readingLoop.step (.headers none []) = some (.stopped (.ok .eof)) := by
    change readingStep (.headers none []) = _
    simp only [readingStep, hline]
    rfl
  rw [readMessage, readHeaders, Loop.run_of_some hstep, Loop.run_of_none rfl]

/-! ## What is written -/

/-- A body as the writer frames it. -/
def written (body : List UInt8) : Frame where
  before := []
  length := ⟨contentLength ++ ([' '] ++ Nat.toDigits 10 body.length ++ []), true⟩
  behind := []
  blank := true
  body := body

theorem bytes_written (body : List UInt8) : (written body).bytes = frame body := by
  have hname : "Content-Length: ".toList = contentLength ++ [' '] := by decide
  have hends : "\r\n\r\n".toList = ending true ++ ending true := by decide
  have hheader : header body.length = (contentLength ++ [' ']) ++ Nat.toDigits 10 body.length ++
      (ending true ++ ending true) :=
    congrArg₂ (· ++ ·) (congrArg (· ++ Nat.toDigits 10 body.length) hname) hends
  rw [frame, hheader, Frame.bytes, Frame.head]
  simp only [written, Line.bytes, List.flatMap_nil, List.nil_append, List.append_nil,
    utf8Bytes_append, List.append_assoc]

/-- What is written is well framed. -/
theorem wellFramed_written (body : List UInt8) : (written body).WellFramed := by
  have hdigit : ∀ c ∈ Nat.toDigits 10 body.length, c.isDigit = true := fun c hc =>
    Nat.isDigit_of_mem_toDigits (by decide) (by decide) hc
  have htext : (written body).length.text =
      contentLength ++ [' '] ++ Nat.toDigits 10 body.length := by
    simp only [written, List.append_nil, List.append_assoc]
  refine ⟨⟨⟨?_, ?_, ?_⟩, [' '], [], ?_, ?_, rfl⟩, ?_⟩
  · rw [htext]
    exact List.append_ne_nil_of_right_ne_nil _ Nat.toDigits_ne_nil
  · rw [htext, List.mem_append]
    rintro (hname | hcount)
    · exact absurd hname (by decide)
    · exact absurd (hdigit _ hcount) (by decide)
  · intro hne hlast
    simp only [htext] at hlast
    rw [List.getLast_append_of_right_ne_nil _ _ Nat.toDigits_ne_nil] at hlast
    have hreturn := hdigit _ (List.getLast_mem Nat.toDigits_ne_nil)
    rw [hlast] at hreturn
    exact absurd hreturn (by decide)
  · intro c hc
    exact Or.inl (List.mem_singleton.mp hc)
  · exact fun c hc => absurd hc List.not_mem_nil
  · exact fun line hline => absurd hline List.not_mem_nil

end Mcp

end RuntimeTrail
