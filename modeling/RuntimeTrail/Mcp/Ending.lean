import RuntimeTrail.Mcp.Session

/-!
# How a session ends

A session ends well between two messages, where its input is a sequence of complete
frames.  The reader takes any end of input among the headers for that end, too: a
header section that was cut off ends a session as well as no section at all.

* **lines** — `Fronts`: a line with its feed, or the last one without;
* **header sections** — `Section`, and `readHeaders_eq_ok_iff`: what the reader makes
  of one, in both directions;
* **frames** — `CompleteFrame`, and `Unfinished` for a section that was cut off;
* **the law** — `ends_between_frames_iff`.
-/

namespace RuntimeTrail

open Library

namespace Mcp

/-! ## Lines -/

/-- A line at the front of an input: behind it comes its line feed, or the input ends. -/
inductive Fronts (text : List Char) : List UInt8 → List UInt8 → Prop
  | fed (rest : List UInt8) : Fronts text (utf8Bytes (text ++ ['\n']) ++ rest) rest
  | last (nonempty : text ≠ []) : Fronts text (utf8Bytes text) []

theorem readUntil_cases (input : List UInt8) :
    (10 ∉ input ∧ readUntil input = (input, [])) ∨
      ∃ line rest, 10 ∉ line ∧ input = line ++ 10 :: rest := by
  induction input with
  | nil => exact Or.inl ⟨List.not_mem_nil, rfl⟩
  | cons byte input ih =>
    by_cases hfeed : byte = 10
    · exact Or.inr ⟨[], input, List.not_mem_nil, by rw [hfeed]; rfl⟩
    · obtain ⟨hnone, hread⟩ | ⟨line, rest, hline, rfl⟩ := ih
      · refine Or.inl ⟨List.not_mem_cons_of_ne_of_not_mem (Ne.symm hfeed) hnone, ?_⟩
        rw [readUntil, if_neg hfeed, hread]
      · exact Or.inr ⟨byte :: line, rest,
          List.not_mem_cons_of_ne_of_not_mem (Ne.symm hfeed) hline, rfl⟩

theorem readLine_fronts {text : List Char} {input rest : List UInt8} (hfeed : '\n' ∉ text)
    (h : Fronts text input rest) :
    ∃ line, readLine input = .ok (line, rest) ∧ trimLine line = trimLine text ∧
      input.isEmpty = false := by
  cases h with
  | fed => exact ⟨_, readLine_text hfeed false rest, trimLine_append text false,
      isEmpty_text text false rest⟩
  | last nonempty =>
    have hbytes : (10 : UInt8) ∉ utf8Bytes text := feed_mem_iff.not.mpr hfeed
    obtain ⟨-, hread⟩ | ⟨line, rest, -, hsplit⟩ := readUntil_cases (utf8Bytes text)
    · refine ⟨text, by rw [readLine, hread, decodeUtf8_utf8Bytes], rfl, ?_⟩
      exact List.isEmpty_eq_false_iff.mpr (utf8Bytes_eq_nil_iff.not.mpr nonempty)
    · exact absurd (hsplit ▸ List.mem_append_right line List.mem_cons_self) hbytes

/-- Any line that is read stands at the front. -/
theorem fronts_of_readLine {line : List Char} {input rest : List UInt8} (hne : input ≠ [])
    (h : readLine input = .ok (line, rest)) :
    ∃ text, '\n' ∉ text ∧ Fronts text input rest ∧ trimLine line = trimLine text := by
  obtain ⟨hnone, hread⟩ | ⟨before, behind, hbefore, rfl⟩ := readUntil_cases input
  · rw [readLine, hread] at h
    cases hdecode : decodeUtf8 input with
    | none =>
      rw [hdecode] at h
      cases h
    | some text =>
      rw [hdecode] at h
      cases h
      have hbytes := utf8Bytes_of_decodeUtf8 hdecode
      refine ⟨line, ?_, ?_, rfl⟩
      · rw [← feed_mem_iff, hbytes]
        exact hnone
      · rw [← hbytes] at hne ⊢
        exact .last fun hnil => hne (by rw [hnil]; rfl)
  · rw [readLine, readUntil_append hbefore] at h
    cases hdecode : decodeUtf8 (before ++ [10]) with
    | none =>
      rw [hdecode] at h
      cases h
    | some text =>
      rw [hdecode] at h
      cases h
      have hbytes := utf8Bytes_of_decodeUtf8 hdecode
      have hfeed : '\n' ∈ line := by
        rw [← feed_mem_iff, hbytes]
        exact List.mem_append_right _ List.mem_cons_self
      obtain ⟨text, more, rfl, htext⟩ := List.eq_append_cons_of_mem hfeed
      -- both lists end their first line at the same feed
      have hsplit : utf8Bytes text ++ 10 :: utf8Bytes more = before ++ 10 :: [] := by
        rw [← hbytes, utf8Bytes_append]
        rfl
      have hread := congrArg readUntil hsplit
      rw [readUntil_append (feed_mem_iff.not.mpr htext), readUntil_append hbefore] at hread
      obtain ⟨hline, hmore⟩ := Prod.mk.inj hread
      obtain rfl : more = [] := utf8Bytes_eq_nil_iff.mp hmore
      refine ⟨text, htext, ?_, trimLine_append text false⟩
      have hfed := @Fronts.fed text behind
      rwa [hbytes, List.append_assoc] at hfed

/-! ## Header lines -/

/-- What a header line declares as the length: nothing, or a count that may not be one. -/
def declaration (text : List Char) : Option (Option Nat) :=
  (contentLength.isPrefixOf? (trimLine text)).map fun value =>
    parseUsize (trim Decode.isWhitespace value)

/-- A header line's text; a length it declares is a decimal count. -/
structure HeaderText (text : List Char) : Prop where
  oneLine : '\n' ∉ text
  nonempty : trimLine text ≠ []
  decimal : declaration text ≠ some none

theorem HeaderText.ne_nil {text : List Char} (h : HeaderText text) : text ≠ [] :=
  fun hnil => h.nonempty (by rw [hnil]; rfl)

theorem readingStep_header {text : List Char} {input rest : List UInt8} (h : HeaderText text)
    (hfront : Fronts text input rest) (length : Option Nat) :
    readingStep (.headers length input) =
      some (.headers ((declaration text).join.or length) rest) := by
  obtain ⟨line, hread, htrim, hinput⟩ := readLine_fronts h.oneLine hfront
  have hdecimal := h.decimal
  simp only [declaration] at hdecimal ⊢
  simp only [readingStep, hread, hinput, htrim]
  rw [if_neg Bool.false_ne_true, if_neg (by simpa using h.nonempty)]
  cases hvalue : contentLength.isPrefixOf? (trimLine text) with
  | none => rfl
  | some value =>
    rw [hvalue] at hdecimal
    cases hcount : parseUsize (trim Decode.isWhitespace value) with
    | none => exact absurd (by rw [Option.map_some, hcount]) hdecimal
    | some count => simp [hcount]

theorem readingStep_empty {text : List Char} {input rest : List UInt8} (hfeed : '\n' ∉ text)
    (hempty : trimLine text = []) (hfront : Fronts text input rest) (length : Option Nat) :
    readingStep (.headers length input) = some (.stopped (.ok (.blank length rest))) := by
  obtain ⟨line, hread, htrim, hinput⟩ := readLine_fronts hfeed hfront
  simp only [readingStep, hread, hinput, htrim, hempty]
  rfl

theorem readingStep_end (length : Option Nat) :
    readingStep (.headers length []) = some (.stopped (.ok .eof)) := by
  have hline : readLine [] = .ok ([], []) := by
    rw [readLine, show (readUntil []).1 = utf8Bytes [] from rfl, decodeUtf8_utf8Bytes]
    rfl
  simp only [readingStep, hline]
  rfl

/-- At something, a step fails, or has read a header line or an empty line. -/
theorem readingStep_inv {length : Option Nat} {input : List UInt8} (hne : input ≠ []) :
    (∃ error, readingStep (.headers length input) = some (.stopped (.error error))) ∨
      ∃ text rest, Fronts text input rest ∧ '\n' ∉ text ∧
        (trimLine text = [] ∨ HeaderText text) := by
  cases hread : readLine input with
  | error error => exact Or.inl ⟨error, by simp only [readingStep, hread]⟩
  | ok line =>
    obtain ⟨line, rest⟩ := line
    obtain ⟨text, hfeed, hfront, htrim⟩ := fronts_of_readLine hne hread
    by_cases hempty : trimLine text = []
    · exact Or.inr ⟨text, rest, hfront, hfeed, Or.inl hempty⟩
    by_cases hdecimal : declaration text = some none
    · left
      obtain ⟨value, hvalue, hcount⟩ := Option.map_eq_some_iff.mp hdecimal
      refine ⟨⟨.invalidData, "invalid Content-Length header"⟩, ?_⟩
      simp only [readingStep, hread, htrim, hvalue, hcount]
      rw [if_neg (by simpa using hne), if_neg (by simpa using hempty)]
    · exact Or.inr ⟨text, rest, hfront, hfeed, Or.inr ⟨hfeed, hempty, hdecimal⟩⟩

theorem readingStep_isSome (length : Option Nat) (input : List UInt8) :
    (readingStep (.headers length input)).isSome := by
  rcases eq_or_ne input [] with rfl | hne
  · rw [readingStep_end]
    rfl
  obtain ⟨error, herror⟩ | ⟨text, rest, hfront, hfeed, hempty | hheader⟩ :=
    @readingStep_inv length _ hne
  · rw [herror]
    rfl
  · rw [readingStep_empty hfeed hempty hfront]
    rfl
  · rw [readingStep_header hheader hfront]
    rfl

/-! ## Header sections -/

/-- A header section as it is read, from a length declared so far: to the end of the input, or to
an empty line. -/
inductive Section : Option Nat → List UInt8 → HeaderEnd → Prop
  | eof (length : Option Nat) : Section length [] .eof
  | blank {text : List Char} {input rest : List UInt8} (length : Option Nat) (oneLine : '\n' ∉ text)
    (empty : trimLine text = []) (front : Fronts text input rest) :
    Section length input (.blank length rest)
  | header {text : List Char} {length : Option Nat} {input rest : List UInt8} {ends : HeaderEnd}
    (header : HeaderText text) (front : Fronts text input rest)
    (others : Section ((declaration text).join.or length) rest ends) : Section length input ends

theorem Section.run_eq {length : Option Nat} {input : List UInt8} {ends : HeaderEnd}
    (h : Section length input ends) :
    readingLoop.run (.headers length input) = .stopped (.ok ends) := by
  induction h with
  | eof length =>
    have hstep : readingLoop.step (.headers length []) = some (.stopped (.ok .eof)) :=
      readingStep_end length
    rw [Loop.run_of_some hstep, Loop.run_of_none rfl]
  | @blank text input rest length oneLine empty front =>
    have hstep : readingLoop.step (.headers length input) =
        some (.stopped (.ok (.blank length rest))) := readingStep_empty oneLine empty front length
    rw [Loop.run_of_some hstep, Loop.run_of_none rfl]
  | @header text length input rest ends header front others ih =>
    have hstep : readingLoop.step (.headers length input) =
        some (.headers ((declaration text).join.or length) rest) :=
      readingStep_header header front length
    rw [Loop.run_of_some hstep, ih]

theorem section_of_run {length : Option Nat} {input : List UInt8} {ends : HeaderEnd}
    (h : readingLoop.run (.headers length input) = .stopped (.ok ends)) :
    Section length input ends := by
  have hrun := readingLoop.run_induct
    (P := fun s t => ∀ length input, s = .headers length input → t = .stopped (.ok ends) →
      Section length input ends)
    (fun s hstop length input hs ht => by
      rw [hs] at ht
      cases ht)
    (fun s s' hstep ih length input hs ht => by
      subst hs
      change readingStep (.headers length input) = some s' at hstep
      rcases eq_or_ne input [] with rfl | hne
      · rw [readingStep_end] at hstep
        obtain rfl := Option.some.inj hstep
        rw [Loop.run_of_none rfl] at ht
        cases ht
        exact .eof length
      obtain ⟨error, herror⟩ | ⟨text, rest, hfront, hfeed, hempty | hheader⟩ :=
        @readingStep_inv length _ hne
      · obtain rfl := Option.some.inj (herror.symm.trans hstep)
        rw [Loop.run_of_none rfl] at ht
        cases ht
      · obtain rfl := Option.some.inj ((readingStep_empty hfeed hempty hfront length).symm.trans hstep)
        rw [Loop.run_of_none rfl] at ht
        cases ht
        exact .blank length hfeed hempty hfront
      · obtain rfl := Option.some.inj ((readingStep_header hheader hfront length).symm.trans hstep)
        exact .header hheader hfront (ih _ _ rfl ht))
    (.headers length input)
  exact hrun length input rfl h

/-- **Headers are read exactly as their section.** -/
theorem readHeaders_eq_ok_iff {input : List UInt8} {ends : HeaderEnd} :
    readHeaders input = .ok ends ↔ Section none input ends := by
  constructor
  · intro h
    unfold readHeaders at h
    split at h
    · rename_i answer hrun
      exact section_of_run (hrun.trans (by rw [h]))
    · rename_i length rest hrun
      have hend : readingStep (.headers length rest) = none := by
        have hlast := readingLoop.step_run (.headers none input)
        rwa [hrun] at hlast
      have hsome := readingStep_isSome length rest
      rw [hend] at hsome
      cases hsome
  · intro h
    rw [readHeaders, h.run_eq]

/-! ## Sections line by line -/

theorem trimLine_eq_nil_iff {text : List Char} (hfeed : '\n' ∉ text) :
    trimLine text = [] ↔ ∀ c ∈ text, c = '\r' := by
  rw [trimLine, List.rdropWhile_eq_nil_iff]
  refine forall₂_congr fun c hc => ?_
  have hne : c ≠ '\n' := fun h => hfeed (h ▸ hc)
  simp [hne]

theorem Fronts.ne_nil {text : List Char} {input rest : List UInt8} (h : Fronts text input rest) :
    input ≠ [] := by
  rintro rfl
  generalize hinput : ([] : List UInt8) = input at h
  cases h with
  | fed rest =>
    have hline := utf8Bytes_eq_nil_iff.mp (List.append_eq_nil_iff.mp hinput.symm).1
    exact absurd hline (List.append_ne_nil_of_right_ne_nil _ (List.cons_ne_nil _ _))
  | last nonempty => exact nonempty (utf8Bytes_eq_nil_iff.mp hinput.symm)

/-- Header lines, each with its feed. -/
def fed (headers : List (List Char)) : List UInt8 :=
  headers.flatMap fun text => utf8Bytes (text ++ ['\n'])

/-- The length that stands behind these headers: the last one declared. -/
def declared (length : Option Nat) (headers : List (List Char)) : Option Nat :=
  headers.foldl (fun length text => (declaration text).join.or length) length

theorem section_fed {headers : List (List Char)} (h : ∀ text ∈ headers, HeaderText text)
    {length : Option Nat} {rest : List UInt8} {ends : HeaderEnd}
    (others : Section (declared length headers) rest ends) :
    Section length (fed headers ++ rest) ends := by
  induction headers generalizing length with
  | nil => exact others
  | cons text headers ih =>
    obtain ⟨hheader, hheaders⟩ := List.forall_mem_cons.mp h
    rw [fed, List.flatMap_cons, List.append_assoc]
    exact .header hheader (.fed _) (ih hheaders others)

/-- How a section ends behind its last complete header line. -/
inductive SectionEnd (length : Option Nat) : List UInt8 → HeaderEnd → Prop
  | eof : SectionEnd length [] .eof
  | cut {last : List Char} (header : HeaderText last) : SectionEnd length (utf8Bytes last) .eof
  | blank {text : List Char} {tail rest : List UInt8} (oneLine : '\n' ∉ text)
    (empty : trimLine text = []) (front : Fronts text tail rest) :
    SectionEnd length tail (.blank length rest)

theorem Section.split {length : Option Nat} {input : List UInt8} {ends : HeaderEnd}
    (h : Section length input ends) : ∃ headers tail, (∀ text ∈ headers, HeaderText text) ∧
      input = fed headers ++ tail ∧ SectionEnd (declared length headers) tail ends := by
  induction h with
  | eof length => exact ⟨[], [], fun _ h => absurd h List.not_mem_nil, rfl, .eof⟩
  | blank length oneLine empty front =>
    exact ⟨[], _, fun _ h => absurd h List.not_mem_nil, rfl, .blank oneLine empty front⟩
  | @header text length input rest ends header front others ih =>
    cases front with
    | fed =>
      obtain ⟨headers, tail, hheaders, rfl, htail⟩ := ih
      refine ⟨text :: headers, tail, List.forall_mem_cons.mpr ⟨header, hheaders⟩, ?_, htail⟩
      rw [fed, fed, List.flatMap_cons, List.append_assoc]
    | last nonempty =>
      refine ⟨[], utf8Bytes text, fun _ h => absurd h List.not_mem_nil, rfl, ?_⟩
      cases others with
      | eof => exact .cut header
      | blank _ _ _ front => exact absurd rfl front.ne_nil
      | header _ front _ => exact absurd rfl front.ne_nil

/-! ## Frames -/

/-- A complete frame: header lines that end with an empty line, and a body of the length that they
declare, within the ceiling. -/
structure CompleteFrame where
  headers : List (List Char)
  blank : List Char
  body : List UInt8
  readable : ∀ text ∈ headers, HeaderText text
  empty : ∀ c ∈ blank, c = '\r'
  length : declared none headers = some body.length
  within : body.length ≤ maxMessageBytes

def CompleteFrame.bytes (f : CompleteFrame) : List UInt8 :=
  fed f.headers ++ (utf8Bytes (f.blank ++ ['\n']) ++ f.body)

/-- A header section the input ends in: behind a header line, within one, or within the empty line
of a frame without a body. -/
inductive Unfinished : List UInt8 → Prop
  | unended {headers : List (List Char)} (readable : ∀ text ∈ headers, HeaderText text)
    (nonempty : headers ≠ []) : Unfinished (fed headers)
  | inHeader {headers : List (List Char)} {last : List Char}
    (readable : ∀ text ∈ headers, HeaderText text) (header : HeaderText last) :
    Unfinished (fed headers ++ utf8Bytes last)
  | inBlank {headers : List (List Char)} {blank : List Char}
    (readable : ∀ text ∈ headers, HeaderText text) (begun : blank ≠ [])
    (empty : ∀ c ∈ blank, c = '\r') (length : declared none headers = some 0) :
    Unfinished (fed headers ++ utf8Bytes blank)

/-- A sequence of complete frames. -/
def Complete (input : List UInt8) : Prop :=
  ∃ frames : List CompleteFrame, input = frames.flatMap CompleteFrame.bytes

/-- A sequence of complete frames, and behind it a header section that was cut off. -/
def CutInHeaders (input : List UInt8) : Prop :=
  ∃ (frames : List CompleteFrame) (tail : List UInt8), Unfinished tail ∧
    input = frames.flatMap CompleteFrame.bytes ++ tail

theorem feed_not_mem_of_empty {blank : List Char} (h : ∀ c ∈ blank, c = '\r') : '\n' ∉ blank :=
  fun hmem => absurd (h _ hmem) (by decide)

theorem readHeaders_bytes (f : CompleteFrame) (rest : List UInt8) :
    readHeaders (f.bytes ++ rest) = .ok (.blank (some f.body.length) (f.body ++ rest)) := by
  have hfeed := feed_not_mem_of_empty f.empty
  have hblank : Section (declared none f.headers)
      (utf8Bytes (f.blank ++ ['\n']) ++ (f.body ++ rest))
      (.blank (declared none f.headers) (f.body ++ rest)) :=
    .blank _ hfeed ((trimLine_eq_nil_iff hfeed).mpr f.empty) (.fed _)
  rw [CompleteFrame.bytes, List.append_assoc, List.append_assoc, ← f.length]
  exact readHeaders_eq_ok_iff.mpr (section_fed f.readable hblank)

theorem CompleteFrame.bytes_ne_nil (f : CompleteFrame) : f.bytes ≠ [] := by
  intro hnil
  have hhead := readHeaders_bytes f []
  rw [hnil, List.append_nil, readHeaders_eq_ok_iff.mpr (.eof none)] at hhead
  cases hhead

/-- What the reader makes of a section that was cut off: its end, or an empty body. -/
theorem readHeaders_unfinished {tail : List UInt8} (h : Unfinished tail) :
    readHeaders tail = .ok .eof ∨
      readHeaders tail = .ok (.blank (some 0) []) ∧ tail.getLast? = some 13 := by
  cases h with
  | @unended headers readable nonempty =>
    have hsection := section_fed readable (.eof (declared none headers))
    rw [List.append_nil] at hsection
    exact Or.inl (readHeaders_eq_ok_iff.mpr hsection)
  | @inHeader headers last readable header =>
    have hne : last ≠ [] := header.ne_nil
    exact Or.inl (readHeaders_eq_ok_iff.mpr
      (section_fed readable (.header header (.last hne) (.eof _))))
  | @inBlank headers blank readable begun empty length =>
    have hfeed := feed_not_mem_of_empty empty
    refine Or.inr ⟨?_, ?_⟩
    · rw [← length]
      exact readHeaders_eq_ok_iff.mpr (section_fed readable
        (.blank _ hfeed ((trimLine_eq_nil_iff hfeed).mpr empty) (.last begun)))
    · obtain ⟨before, last, rfl⟩ := (List.eq_nil_or_concat' blank).resolve_left begun
      obtain rfl := empty last (List.mem_append_right _ List.mem_cons_self)
      rw [utf8Bytes_append, ← List.append_assoc]
      exact List.getLast?_concat

theorem Unfinished.ne_nil {tail : List UInt8} (h : Unfinished tail) : tail ≠ [] := by
  rintro hnil
  cases h with
  | @unended headers readable nonempty =>
    obtain ⟨text, headers, rfl⟩ := List.exists_cons_of_ne_nil nonempty
    rw [fed, List.flatMap_cons] at hnil
    have hline := utf8Bytes_eq_nil_iff.mp (List.append_eq_nil_iff.mp hnil).1
    exact absurd hline (List.append_ne_nil_of_right_ne_nil _ (List.cons_ne_nil _ _))
  | inHeader readable header =>
    exact header.ne_nil (utf8Bytes_eq_nil_iff.mp (List.append_eq_nil_iff.mp hnil).2)
  | inBlank readable begun empty length =>
    exact begun (utf8Bytes_eq_nil_iff.mp (List.append_eq_nil_iff.mp hnil).2)

/-- No frame is a section that was cut off: such a section is a frame without a body, but for its
last feed. -/
theorem not_unfinished_bytes (f : CompleteFrame) (rest : List UInt8) :
    ¬ Unfinished (f.bytes ++ rest) := by
  intro h
  have hhead := readHeaders_bytes f rest
  obtain heof | ⟨hblank, hlast⟩ := readHeaders_unfinished h
  · rw [heof] at hhead
    cases hhead
  · rw [hblank] at hhead
    obtain ⟨-, hbehind⟩ := HeaderEnd.blank.inj (Except.ok.inj hhead)
    rw [CompleteFrame.bytes, utf8Bytes_append, List.append_assoc, List.append_assoc,
      List.append_assoc, ← hbehind, List.append_nil, ← List.append_assoc] at hlast
    change (_ ++ [10]).getLast? = _ at hlast
    rw [List.getLast?_concat] at hlast
    cases hlast

/-- An input starts with one frame at most. -/
theorem rest_of_bytes {f g : CompleteFrame} {rest rest' : List UInt8}
    (h : f.bytes ++ rest = g.bytes ++ rest') : rest = rest' := by
  have hf := readHeaders_bytes f rest
  rw [h, readHeaders_bytes] at hf
  obtain ⟨hlength, hbehind⟩ := HeaderEnd.blank.inj (Except.ok.inj hf)
  have hrest := congrArg (List.drop g.body.length) hbehind
  rw [List.drop_left, Option.some.inj hlength, List.drop_left] at hrest
  exact hrest.symm

theorem complete_behind {f : CompleteFrame} {rest : List UInt8} (h : Complete (f.bytes ++ rest)) :
    Complete rest := by
  obtain ⟨frames, hframes⟩ := h
  cases frames with
  | nil => exact absurd (List.append_eq_nil_iff.mp hframes).1 f.bytes_ne_nil
  | cons g frames =>
    rw [List.flatMap_cons] at hframes
    exact ⟨frames, rest_of_bytes hframes⟩

theorem cutInHeaders_behind {f : CompleteFrame} {rest : List UInt8}
    (h : CutInHeaders (f.bytes ++ rest)) : CutInHeaders rest := by
  obtain ⟨frames, tail, htail, hframes⟩ := h
  cases frames with
  | nil =>
    obtain rfl : f.bytes ++ rest = tail := hframes
    exact absurd htail (not_unfinished_bytes f rest)
  | cons g frames =>
    rw [List.flatMap_cons, List.append_assoc] at hframes
    exact ⟨frames, tail, htail, rest_of_bytes hframes⟩

/-! ## Sessions -/

/-- A message that is read: its header section, and its body. -/
theorem readMessage_ok {codec : Codec} {input rest : List UInt8} {outcome : ReadOutcome}
    (h : readMessage codec input = .ok (outcome, rest)) :
    (readHeaders input = .ok .eof ∧ outcome = .eof) ∨
      ∃ length behind, readHeaders input = .ok (.blank (some length) behind) ∧
        length ≤ maxMessageBytes ∧ length ≤ behind.length ∧ rest = behind.drop length ∧
        outcome = outcomeOf codec (behind.take length) := by
  cases hhead : readHeaders input with
  | error error =>
    rw [readMessage, hhead] at h
    cases h
  | ok ends =>
    cases ends with
    | eof =>
      rw [readMessage, hhead] at h
      cases h
      exact Or.inl ⟨rfl, rfl⟩
    | blank length behind =>
      cases length with
      | none =>
        rw [readMessage, hhead] at h
        cases h
      | some length =>
        by_cases hceiling : length ≤ maxMessageBytes
        · by_cases hbody : length ≤ behind.length
          · rw [readMessage_blank codec hhead hceiling hbody] at h
            cases h
            exact Or.inr ⟨length, behind, rfl, hceiling, hbody, rfl, rfl⟩
          · rw [readMessage, hhead] at h
            dsimp only at h
            rw [if_neg (not_lt.mpr hceiling), if_pos (not_le.mp hbody)] at h
            cases h
        · rw [readMessage, hhead] at h
          dsimp only at h
          rw [if_pos (not_le.mp hceiling)] at h
          cases h

section Sessions

variable {codec : Codec} {surface : Surface}

/-- A turn of a session fails, ends it well at the end of the input, or takes off a header section
and its body. -/
theorem servingStep_inv {input output : List UInt8} {s : Serving}
    (h : servingStep codec surface (.going input output) = some s) :
    (∃ error, s = .ended (.error error) output) ∨
      (readHeaders input = .ok .eof ∧ s = .ended (.ok ()) output) ∨
      ∃ length behind output', readHeaders input = .ok (.blank (some length) behind) ∧
        length ≤ maxMessageBytes ∧ length ≤ behind.length ∧
        s = .going (behind.drop length) output' := by
  cases hread : readMessage codec input with
  | error error =>
    simp only [servingStep, hread, Option.some.injEq] at h
    exact Or.inl ⟨error, h.symm⟩
  | ok read =>
    obtain ⟨outcome, rest⟩ := read
    obtain ⟨hhead, rfl⟩ | ⟨length, behind, hhead, hceiling, hbody, rfl, houtcome⟩ :=
      readMessage_ok hread
    · simp only [servingStep, hread, Option.some.injEq] at h
      exact Or.inr (Or.inl ⟨hhead, h.symm⟩)
    · have hgoing : ∀ response, s = respond codec (behind.drop length) output response →
          (∃ error, s = .ended (.error error) output) ∨
            ∃ output', s = .going (behind.drop length) output' := by
        rintro response rfl
        exact (respond_cases codec _ output response).symm
      have hcases : (∃ error, s = .ended (.error error) output) ∨
          ∃ output', s = .going (behind.drop length) output' := by
        unfold outcomeOf at houtcome
        split at houtcome
        · rename_i message _
          subst houtcome
          simp only [servingStep, hread] at h
          split at h
          · exact hgoing _ (Option.some.inj h).symm
          · exact Or.inr ⟨output, (Option.some.inj h).symm⟩
        · subst houtcome
          simp only [servingStep, hread] at h
          exact hgoing _ (Option.some.inj h).symm
      exact hcases.imp_right fun hgoes =>
        Or.inr ⟨length, behind, hgoes.choose, hhead, hceiling, hbody, hgoes.choose_spec⟩

theorem run_eof {input : List UInt8} (h : readHeaders input = .ok .eof) (output : List UInt8) :
    (servingLoop codec surface).run (.going input output) = .ended (.ok ()) output := by
  have hstep : (servingLoop codec surface).step (.going input output) =
      some (.ended (.ok ()) output) := by
    change servingStep codec surface (.going input output) = _
    rw [servingStep, readMessage, h]
  rw [Loop.run_of_some hstep, Loop.run_of_none rfl]

/-- Whatever the body, a session goes on behind it, as long as any response can be printed. -/
theorem run_blank (htotal : ∀ value, (codec.toVec value).isSome) {input behind : List UInt8}
    {length : Nat} (h : readHeaders input = .ok (.blank (some length) behind))
    (hceiling : length ≤ maxMessageBytes) (hbody : length ≤ behind.length) (output : List UInt8) :
    ∃ output', (servingLoop codec surface).run (.going input output) =
      (servingLoop codec surface).run (.going (behind.drop length) output') := by
  have hrespond : ∀ response, ∃ output',
      respond codec (behind.drop length) output response = .going (behind.drop length) output' := by
    intro response
    obtain ⟨body, hprinted⟩ := Option.isSome_iff_exists.mp (htotal response)
    exact ⟨output ++ frame body, by rw [respond, writeMessage, hprinted]⟩
  have hstep : ∃ output', servingStep codec surface (.going input output) =
      some (.going (behind.drop length) output') := by
    simp only [servingStep, readMessage_blank codec h hceiling hbody, outcomeOf]
    cases codec.fromSlice (behind.take length) with
    | none =>
      obtain ⟨output', heq⟩ := hrespond (errorResponse .null parseErrorCode "parse error")
      exact ⟨output', congrArg some heq⟩
    | some message =>
      dsimp only
      cases handle surface message with
      | none => exact ⟨output, rfl⟩
      | some response =>
        obtain ⟨output', heq⟩ := hrespond response
        exact ⟨output', congrArg some heq⟩
  obtain ⟨output', hstep⟩ := hstep
  exact ⟨output', Loop.run_of_some hstep⟩

theorem run_complete (htotal : ∀ value, (codec.toVec value).isSome) (frames : List CompleteFrame)
    (tail output : List UInt8) : ∃ output',
      (servingLoop codec surface).run (.going (frames.flatMap CompleteFrame.bytes ++ tail) output) =
        (servingLoop codec surface).run (.going tail output') := by
  induction frames generalizing output with
  | nil => exact ⟨output, rfl⟩
  | cons f frames ih =>
    have hhead := readHeaders_bytes f (frames.flatMap CompleteFrame.bytes ++ tail)
    obtain ⟨output', hrun⟩ := @run_blank codec surface htotal _ _ _ hhead f.within
      (by rw [List.length_append]; exact Nat.le_add_right _ _) output
    obtain ⟨output'', hrest⟩ := ih output'
    refine ⟨output'', ?_⟩
    rw [List.flatMap_cons, List.append_assoc, hrun, List.drop_left, hrest]

theorem run_unfinished (htotal : ∀ value, (codec.toVec value).isSome) {tail : List UInt8}
    (h : Unfinished tail) (output : List UInt8) : ∃ output',
      (servingLoop codec surface).run (.going tail output) = .ended (.ok ()) output' := by
  obtain heof | ⟨hblank, -⟩ := readHeaders_unfinished h
  · exact ⟨output, run_eof heof output⟩
  · obtain ⟨output', hrun⟩ := @run_blank codec surface htotal _ _ _ hblank (Nat.zero_le _)
      (Nat.zero_le _) output
    refine ⟨output', hrun.trans (run_eof ?_ output')⟩
    exact readHeaders_eq_ok_iff.mpr (.eof none)

end Sessions

/-! ## What a session that ended well has read -/

/-- A frame in front of frames, or in front of frames and a cut section. -/
theorem ends_behind (f : CompleteFrame) {rest : List UInt8} (h : Complete rest ∨ CutInHeaders rest) :
    Complete (f.bytes ++ rest) ∨ CutInHeaders (f.bytes ++ rest) := by
  obtain ⟨frames, rfl⟩ | ⟨frames, tail, htail, rfl⟩ := h
  · exact Or.inl ⟨f :: frames, rfl⟩
  · refine Or.inr ⟨f :: frames, tail, htail, ?_⟩
    rw [List.flatMap_cons, List.append_assoc]

theorem ends_of_eof {input : List UInt8} (h : readHeaders input = .ok .eof) :
    Complete input ∨ CutInHeaders input := by
  obtain ⟨headers, tail, hheaders, rfl, hend⟩ := (readHeaders_eq_ok_iff.mp h).split
  cases hend with
  | eof =>
    rcases eq_or_ne headers [] with rfl | hne
    · exact Or.inl ⟨[], rfl⟩
    · exact Or.inr ⟨[], _, .unended hheaders hne, by rw [List.append_nil]; rfl⟩
  | cut header => exact Or.inr ⟨[], _, .inHeader hheaders header, rfl⟩

theorem ends_of_blank {input behind : List UInt8} {length : Nat}
    (h : readHeaders input = .ok (.blank (some length) behind))
    (hceiling : length ≤ maxMessageBytes) (hbody : length ≤ behind.length)
    (hrest : Complete (behind.drop length) ∨ CutInHeaders (behind.drop length)) :
    Complete input ∨ CutInHeaders input := by
  obtain ⟨headers, tail, hheaders, rfl, hend⟩ := (readHeaders_eq_ok_iff.mp h).split
  generalize hends : HeaderEnd.blank (some length) behind = ends at hend
  cases hend with
  | eof => cases hends
  | cut => cases hends
  | @blank text tail rest oneLine empty front =>
    obtain ⟨hlength, rfl⟩ := HeaderEnd.blank.inj hends
    have hreturns := (trimLine_eq_nil_iff oneLine).mp empty
    cases front with
    | fed =>
      have hexact : (behind.take length).length = length := List.length_take_of_le hbody
      have hframe := ends_behind ⟨headers, text, behind.take length, hheaders, hreturns,
        hlength.symm.trans (congrArg some hexact.symm), hexact.trans_le hceiling⟩ hrest
      rwa [CompleteFrame.bytes, List.append_assoc, List.append_assoc,
        List.take_append_drop] at hframe
    | last nonempty =>
      obtain rfl : length = 0 := Nat.le_zero.mp hbody
      exact Or.inr ⟨[], _, .inBlank hheaders nonempty hreturns hlength.symm, rfl⟩

theorem ends_of_run {codec : Codec} {surface : Surface} {input output output' : List UInt8}
    (h : (servingLoop codec surface).run (.going input output) = .ended (.ok ()) output') :
    Complete input ∨ CutInHeaders input := by
  have hrun := (servingLoop codec surface).run_induct
    (P := fun s t => ∀ input output, s = .going input output → t = .ended (.ok ()) output' →
      Complete input ∨ CutInHeaders input)
    (fun s hstop input output hs ht => by
      rw [hs] at ht
      cases ht)
    (fun s s' hstep ih input output hs ht => by
      subst hs
      obtain ⟨error, rfl⟩ | ⟨hhead, rfl⟩ | ⟨length, behind, output'', hhead, hceiling, hbody, rfl⟩ :=
        servingStep_inv hstep
      · rw [Loop.run_of_none rfl] at ht
        cases ht
      · exact ends_of_eof hhead
      · exact ends_of_blank hhead hceiling hbody (ih _ _ rfl ht))
    (.going input output)
  exact hrun input output rfl h

/-- A session runs to an end. -/
theorem run_ended (codec : Codec) (surface : Surface) (input output : List UInt8) :
    ∃ result output', (servingLoop codec surface).run (.going input output) =
      .ended result output' := by
  cases hrun : (servingLoop codec surface).run (.going input output) with
  | ended result output' => exact ⟨result, output', rfl⟩
  | going rest written =>
    have hend : servingStep codec surface (.going rest written) = none := by
      have hlast := (servingLoop codec surface).step_run (.going input output)
      rwa [hrun] at hlast
    have hsome : (servingStep codec surface (.going rest written)).isSome := by
      unfold servingStep
      split
      · rename_i heq
        cases heq
      · split
        · rfl
        · rfl
        · rfl
        · split
          · rfl
          · rfl
    rw [hend] at hsome
    cases hsome

/-- **A session ends well exactly behind complete frames, or in a header section behind them.** -/
theorem serve_ok_iff {codec : Codec} (surface : Surface)
    (htotal : ∀ value, (codec.toVec value).isSome) (input : List UInt8) :
    (serve codec surface input).1 = .ok () ↔ Complete input ∨ CutInHeaders input := by
  constructor
  · intro h
    obtain ⟨result, output, hrun⟩ := run_ended codec surface input []
    rw [serve, hrun] at h
    obtain rfl : result = .ok () := h
    exact ends_of_run hrun
  · rintro (⟨frames, rfl⟩ | ⟨frames, tail, htail, rfl⟩)
    · obtain ⟨output, hrun⟩ := @run_complete codec surface htotal frames [] []
      rw [List.append_nil] at hrun
      rw [serve, hrun, run_eof (readHeaders_eq_ok_iff.mpr (.eof none))]
    · obtain ⟨output, hrun⟩ := @run_complete codec surface htotal frames tail []
      obtain ⟨output', hend⟩ := @run_unfinished codec surface htotal tail htail output
      rw [serve, hrun, hend]

/-- **No input is both**: where a header section was cut off, no frame is complete. -/
theorem not_complete_of_cutInHeaders {input : List UInt8} (h : CutInHeaders input) :
    ¬ Complete input := by
  obtain ⟨frames, tail, htail, rfl⟩ := h
  induction frames with
  | nil =>
    rintro ⟨others, hothers⟩
    cases others with
    | nil => exact htail.ne_nil hothers
    | cons f others =>
      rw [List.flatMap_nil, List.nil_append, List.flatMap_cons] at hothers
      exact not_unfinished_bytes f _ (hothers ▸ htail)
  | cons f frames ih =>
    rw [List.flatMap_cons, List.append_assoc]
    exact fun hcomplete => ih (complete_behind hcomplete)

/-- Behind complete frames a body shorter than its header says ends no sequence of frames, and no
header section either. -/
theorem cut_of_short {tail behind : List UInt8} {length : Nat}
    (h : readHeaders tail = .ok (.blank (some length) behind)) (hshort : behind.length < length)
    (frames : List CompleteFrame) :
    ¬ Complete (frames.flatMap CompleteFrame.bytes ++ tail) ∧
      ¬ CutInHeaders (frames.flatMap CompleteFrame.bytes ++ tail) := by
  have hne : tail ≠ [] := by
    rintro rfl
    rw [readHeaders_eq_ok_iff.mpr (.eof none)] at h
    cases h
  have hnone : ∀ (f : CompleteFrame) rest, tail ≠ f.bytes ++ rest := by
    rintro f rest rfl
    rw [readHeaders_bytes] at h
    obtain ⟨hlength, rfl⟩ := HeaderEnd.blank.inj (Except.ok.inj h)
    rw [List.length_append, Option.some.inj hlength] at hshort
    exact absurd hshort (by omega)
  induction frames with
  | nil =>
    refine ⟨?_, ?_⟩
    · rintro ⟨others, hothers⟩
      cases others with
      | nil => exact hne hothers
      | cons f others => exact hnone f _ hothers
    · rintro ⟨others, last, hlast, hothers⟩
      cases others with
      | nil =>
        obtain rfl : tail = last := hothers
        obtain heof | ⟨hblank, -⟩ := readHeaders_unfinished hlast
        · rw [heof] at h
          cases h
        · rw [hblank] at h
          obtain ⟨hlength, -⟩ := HeaderEnd.blank.inj (Except.ok.inj h)
          rw [← Option.some.inj hlength] at hshort
          exact Nat.not_lt_zero _ hshort
      | cons f others =>
        rw [List.flatMap_cons, List.append_assoc] at hothers
        exact hnone f _ hothers
  | cons f frames ih =>
    rw [List.flatMap_cons, List.append_assoc]
    exact ⟨fun h => ih.1 (complete_behind h), fun h => ih.2 (cutInHeaders_behind h)⟩

/-! ## The law -/

/-- **When the end of the input is the end of the session.**  Where JSON can be printed, a session
over any input ends well exactly for a sequence of complete frames, unless the input ends in a
header section. -/
theorem ends_between_frames_iff (codec : Codec) (surface : Surface) (input : List UInt8)
    (htotal : ∀ value, (codec.toVec value).isSome) :
    ((serve codec surface input).1 = .ok () ↔ Complete input) ↔ ¬ CutInHeaders input := by
  rw [serve_ok_iff surface htotal]
  constructor
  · exact fun h hcut => not_complete_of_cutInHeaders hcut (h.mp (Or.inr hcut))
  · exact fun hcut => ⟨fun h => h.resolve_right hcut, Or.inl⟩

/-- The header of a message of five bytes. -/
def lengthHeader : List Char := "Content-Length: 5".toList

theorem headerText_lengthHeader : HeaderText lengthHeader :=
  ⟨by decide +kernel, by decide +kernel, by decide +kernel⟩

/-- A message whose body is no JSON. -/
def greetingFrame : CompleteFrame where
  headers := [lengthHeader]
  blank := ['\r']
  body := greeting
  readable text h := List.mem_singleton.mp h ▸ headerText_lengthHeader
  empty c h := List.mem_singleton.mp h
  length := by decide +kernel
  within := by decide +kernel

/-- A ping, under a header that takes no carriage return. -/
def pingFrame : CompleteFrame where
  headers := ["Content-Type: application/json".toList, "Content-Length: 40".toList]
  blank := []
  body := pingRequest.toBytes
  readable text h := by
    simp only [List.mem_cons, List.not_mem_nil, or_false] at h
    rcases h with rfl | rfl <;>
      exact ⟨by decide +kernel, by decide +kernel, by decide +kernel⟩
  empty c h := absurd h List.not_mem_nil
  length := by decide +kernel
  within := by decide +kernel

/-- A ping and a message that is no JSON. -/
def twoMessages : List UInt8 := [pingFrame, greetingFrame].flatMap CompleteFrame.bytes

/-- A section that declares five bytes, and three of them. -/
def shortBody : List UInt8 :=
  fed [lengthHeader] ++ (utf8Bytes (['\r'] ++ ['\n']) ++ utf8Bytes "hel".toList)

theorem readHeaders_shortBody :
    readHeaders shortBody = .ok (.blank (some 5) (utf8Bytes "hel".toList)) := by
  have hfeed : '\n' ∉ ['\r'] := by decide
  have hdeclared : declared none [lengthHeader] = some 5 := by decide +kernel
  rw [← hdeclared]
  exact readHeaders_eq_ok_iff.mpr (section_fed
    (fun text h => List.mem_singleton.mp h ▸ headerText_lengthHeader)
    (.blank _ hfeed (by decide +kernel) (.fed _)))

/-- Behind two messages a session ends well where its input ends, and fails within a third one. -/
theorem ends_between_frames_iff_twoMessages :
    (serve jsonCodec bareSurface twoMessages).1 = .ok () ∧
      (serve jsonCodec bareSurface (twoMessages ++ shortBody)).1 ≠ .ok () := by
  have hcomplete : Complete twoMessages := ⟨_, rfl⟩
  obtain ⟨hfew, hnocut⟩ := cut_of_short readHeaders_shortBody (by decide +kernel)
    [pingFrame, greetingFrame]
  refine ⟨((ends_between_frames_iff jsonCodec bareSurface twoMessages fun _ => rfl).mpr
    fun hcut => not_complete_of_cutInHeaders hcut hcomplete).mpr hcomplete, fun hok => hfew ?_⟩
  exact ((ends_between_frames_iff jsonCodec bareSurface (twoMessages ++ shortBody) fun _ => rfl).mpr
    hnocut).mp hok

/-- A stream that ends within a header is taken for a clean end. -/
theorem ends_within_header : ¬ ∀ (codec : Codec) (surface : Surface) (input : List UInt8),
    (∀ value, (codec.toVec value).isSome) →
    ((serve codec surface input).1 = .ok () ↔ Complete input) := by
  intro h
  have hcut : CutInHeaders (utf8Bytes lengthHeader) :=
    ⟨[], _, .inHeader (fun _ h => absurd h List.not_mem_nil) headerText_lengthHeader, rfl⟩
  have hok := (@serve_ok_iff jsonCodec bareSurface (fun _ => rfl) _).mpr (Or.inr hcut)
  exact not_complete_of_cutInHeaders hcut ((h jsonCodec bareSurface _ fun _ => rfl).mp hok)

end Mcp

end RuntimeTrail
