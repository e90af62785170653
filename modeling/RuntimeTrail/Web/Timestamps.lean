import RuntimeTrail.Http.Render
import RuntimeTrail.Library.Binary64

/-!
# Timestamps in the web client

The server renders a time as a JSON number of up to 64 bits.  The client parses the
body with a reviver that turns a number beyond the safe integers into its decimal
text; but the reviver is given what the parser made of the number, and the parser
makes a double of it.

* **numbers** — `JsNumber`, its `isSafeInteger` and its `text`;
* **parsing** — `parseEnvelope`, and `atPath_parseEnvelope`: what it yields at a path
  is what it makes of the value there;
* **one number** — `parseEnvelope_ofNat`: a number comes back as itself below `2 ^ 53`,
  and from there on as the shortest decimal of its double;
* **the law** — `rendered_exact_iff`.
-/

namespace RuntimeTrail.Web

open Library

/-! ## Numbers -/

/-- A number of the client: a double that is whole, an infinity, or a double with a fraction
under its text. -/
inductive JsNumber where
  | whole (value : Int)
  | infinite (negative : Bool)
  | fractional (text : String)
deriving DecidableEq

namespace JsNumber

/-- The greatest safe integer. -/
def maxSafeInteger : Nat := 2 ^ 53 - 1

/-- The double nearest a natural number, an infinity past the greatest exponent. -/
def ofNat (n : Nat) : JsNumber :=
  if (toDouble n).log2 < 1024 then whole (toDouble n) else infinite false

def neg : JsNumber → JsNumber
  | whole value => whole (-value)
  | infinite negative => infinite !negative
  | fractional text => fractional ("-" ++ text)

/-- The double nearest an integer. -/
def ofInt (n : Int) : JsNumber := if n < 0 then (ofNat n.natAbs).neg else ofNat n.natAbs

/-- Whether a number is whole and no two integers are rounded to it or to a neighbour. -/
def isSafeInteger : JsNumber → Bool
  | whole value => decide (value.natAbs ≤ maxSafeInteger)
  | _ => false

/-- The text of a decimal of more than 21 digits: its significant digits and an exponent. -/
def exponentText (m : Nat) : List Char :=
  let digits := Nat.toDigits 10 m
  let significant := (digits.reverse.dropWhile (· == '0')).reverse
  significant.take 1 ++ (if significant.length = 1 then [] else '.' :: significant.drop 1) ++
    ('e' :: '+' :: Nat.toDigits 10 (digits.length - 1))

/-- The text of a whole double. -/
def wholeText (x : Nat) : List Char :=
  if shortest x < 10 ^ 21 then Nat.toDigits 10 (shortest x) else exponentText (shortest x)

/-- A number's text. -/
def text : JsNumber → String
  | whole value =>
    String.ofList (if value < 0 then '-' :: wholeText value.natAbs else wholeText value.natAbs)
  | infinite negative => if negative then "-Infinity" else "Infinity"
  | fractional text => text

end JsNumber

/-! ## Parsing -/

/-- A value of the client. -/
inductive JsValue where
  | null
  | bool (value : Bool)
  | number (value : JsNumber)
  | string (value : String)
  | array (items : List JsValue)
  | object (entries : List (String × JsValue))

/-- The natural number a run of digits denotes. -/
def digitsValue (text : List Char) : Option Nat :=
  if text.isEmpty || !text.all Char.isDigit then none else some (Nat.ofDigitChars 10 text 0)

section Parse

-- what the parser makes of a literal with a fraction or an exponent
variable (fraction : JsonNumber → JsNumber)

/-- An integer literal is rounded to the nearest double, ties to even. -/
def parseNumber (literal : JsonNumber) : JsNumber :=
  match digitsValue literal.literal with
  | some n => JsNumber.ofNat n
  | none =>
    match literal.literal with
    | '-' :: digits =>
      match digitsValue digits with
      | some n => (JsNumber.ofNat n).neg
      | none => fraction literal
    | _ => fraction literal

mutual

/-- The value a JSON text denotes. -/
def jsonParse : JsonValue → JsValue
  | .null => .null
  | .bool value => .bool value
  | .number literal => .number (parseNumber fraction literal)
  | .string value => .string value
  | .array items => .array (jsonParseItems items)
  | .object entries => .object (jsonParseEntries entries)

def jsonParseItems : List JsonValue → List JsValue
  | [] => []
  | item :: rest => jsonParse item :: jsonParseItems rest

def jsonParseEntries : List (String × JsonValue) → List (String × JsValue)
  | [] => []
  | (key, value) :: rest => (key, jsonParse value) :: jsonParseEntries rest

end

end Parse

mutual

/-- The reviver, from the leaves up: a number that is no safe integer becomes its text. -/
def revive : JsValue → JsValue
  | .number value => if value.isSafeInteger then .number value else .string value.text
  | .array items => .array (reviveItems items)
  | .object entries => .object (reviveEntries entries)
  | value => value

def reviveItems : List JsValue → List JsValue
  | [] => []
  | item :: rest => revive item :: reviveItems rest

def reviveEntries : List (String × JsValue) → List (String × JsValue)
  | [] => []
  | (key, value) :: rest => (key, revive value) :: reviveEntries rest

end

/-- Parses the envelope's body, given what the parser makes of literals that are no integers. -/
def parseEnvelope (fraction : JsonNumber → JsNumber) (body : JsonValue) : JsValue :=
  revive (jsonParse fraction body)

namespace JsValue

/-- The value a step comes to. -/
def step (value : JsValue) : JsonValue.Step → Option JsValue
  | .member key =>
    match value with
    | object entries => entries.lookup key
    | _ => none
  | .item index =>
    match value with
    | array items => items[index]?
    | _ => none

/-- The value at a path. -/
def atPath (value : JsValue) : List JsonValue.Step → Option JsValue
  | [] => some value
  | first :: rest => (value.step first).bind fun inner => inner.atPath rest

/-- Another value in the place of an absent one. -/
def orElse (value other : JsValue) : JsValue :=
  match value with
  | null => other
  | present => present

/-- The integer of a whole number, a truth value or a decimal text. -/
def toBigInt : JsValue → Option Int
  | number (.whole value) => some value
  | bool value => some (if value then 1 else 0)
  | string text =>
    match text.toList with
    | '-' :: digits => (digitsValue digits).map fun n => -(n : Int)
    | digits => (digitsValue digits).map fun n => (n : Int)
  | _ => none

end JsValue

/-- The milliseconds between two times; a span that has not ended took none. -/
def nanoSpanMs (start ended : JsValue) : Option JsNumber := do
  let last ← (ended.orElse start).toBigInt
  let first ← start.toBigInt
  return JsNumber.ofInt ((last - first).tdiv 1000000)

/-! ## Paths -/

section Paths

variable (fraction : JsonNumber → JsNumber)

theorem jsonParseItems_eq (items : List JsonValue) :
    jsonParseItems fraction items = items.map (jsonParse fraction) := by
  induction items with
  | nil => rfl
  | cons item rest ih => rw [jsonParseItems, ih, List.map_cons]

theorem jsonParseEntries_eq (entries : List (String × JsonValue)) :
    jsonParseEntries fraction entries = entries.map fun e => (e.1, jsonParse fraction e.2) := by
  induction entries with
  | nil => rfl
  | cons e rest ih => rw [jsonParseEntries, ih, List.map_cons]

theorem reviveItems_eq (items : List JsValue) : reviveItems items = items.map revive := by
  induction items with
  | nil => rfl
  | cons item rest ih => rw [reviveItems, ih, List.map_cons]

theorem reviveEntries_eq (entries : List (String × JsValue)) :
    reviveEntries entries = entries.map fun e => (e.1, revive e.2) := by
  induction entries with
  | nil => rfl
  | cons e rest ih => rw [reviveEntries, ih, List.map_cons]

/-- An array of the body becomes the array of its parsed items. -/
theorem parseEnvelope_array (items : List JsonValue) :
    parseEnvelope fraction (.array items) = .array (items.map (parseEnvelope fraction)) := by
  rw [parseEnvelope, jsonParse, revive, jsonParseItems_eq, reviveItems_eq, List.map_map]
  rfl

/-- An object becomes that of its parsed members. -/
theorem parseEnvelope_object (entries : List (String × JsonValue)) :
    parseEnvelope fraction (.object entries) =
      .object (entries.map fun e => (e.1, parseEnvelope fraction e.2)) := by
  rw [parseEnvelope, jsonParse, revive, jsonParseEntries_eq, reviveEntries_eq, List.map_map]
  rfl

theorem parseEnvelope_number (literal : JsonNumber) :
    parseEnvelope fraction (.number literal) =
      if (parseNumber fraction literal).isSafeInteger then .number (parseNumber fraction literal)
      else .string (parseNumber fraction literal).text := by
  rw [parseEnvelope, jsonParse, revive]

theorem lookup_map_snd {α β : Type} (f : α → β) (key : String) (entries : List (String × α)) :
    (entries.map fun e => (e.1, f e.2)).lookup key = (entries.lookup key).map f := by
  induction entries with
  | nil => rfl
  | cons e rest ih =>
    rw [List.map_cons, List.lookup_cons, List.lookup_cons, ih]
    cases key == e.1 with
    | true => rfl
    | false => rfl

/-- A step of the parsed body comes to what is made of the value the same step comes to. -/
theorem step_parseEnvelope (body : JsonValue) (first : JsonValue.Step) :
    (parseEnvelope fraction body).step first = (body.step first).map (parseEnvelope fraction) := by
  cases body with
  | array items =>
    rw [parseEnvelope_array]
    cases first with
    | member key => rfl
    | item index => exact List.getElem?_map ..
  | object entries =>
    rw [parseEnvelope_object]
    cases first with
    | member key => exact lookup_map_snd (parseEnvelope fraction) key entries
    | item index => rfl
  | number literal =>
    rw [parseEnvelope_number]
    split
    · cases first <;> rfl
    · cases first <;> rfl
  | _ => cases first <;> rfl

/-- **The parsed body is parsed at every path.** -/
theorem atPath_parseEnvelope (body : JsonValue) (path : List JsonValue.Step) :
    (parseEnvelope fraction body).atPath path =
      (body.atPath path).map (parseEnvelope fraction) := by
  induction path generalizing body with
  | nil => rfl
  | cons first rest ih =>
    rw [JsValue.atPath, JsonValue.atPath, step_parseEnvelope]
    cases body.step first with
    | none => rfl
    | some inner => exact ih inner

end Paths

/-! ## One number -/

/-- A number's digits denote it. -/
theorem digitsValue_toDigits (n : Nat) : digitsValue (Nat.toDigits 10 n) = some n := by
  have hall : (Nat.toDigits 10 n).all Char.isDigit = true := List.all_eq_true.mpr fun _ hc =>
    Nat.isDigit_of_mem_toDigits (by decide) (by decide) hc
  rw [digitsValue]
  simp [hall, Nat.toDigits_ne_nil, Nat.ofDigitChars_ten_toDigits]

/-- An integer literal is parsed as the double nearest it. -/
theorem parseNumber_ofNat (fraction : JsonNumber → JsNumber) (n : Nat) :
    parseNumber fraction (.ofNat n) = JsNumber.ofNat n := by
  rw [parseNumber, JsonNumber.ofNat, digitsValue_toDigits]

/-- A double of 64 bits is no infinity. -/
theorem ofNat_of_le {n : Nat} (h : toDouble n ≤ 2 ^ 64) :
    JsNumber.ofNat n = .whole (toDouble n) := by
  have hexponent : (toDouble n).log2 < 65 := by
    rcases Nat.eq_zero_or_pos (toDouble n) with hzero | hpos
    · rw [hzero]
      decide
    · exact (Nat.log2_lt hpos.ne').mpr (by omega)
  rw [JsNumber.ofNat, if_pos (by omega)]

theorem toDouble_le_two_pow_64 {n : Nat} (hn : n ≤ u64Max) : toDouble n ≤ 2 ^ 64 := by
  have h := toDouble_mono (Nat.le_trans hn (by decide : u64Max ≤ 2 ^ 64))
  rwa [show toDouble (2 ^ 64) = 2 ^ 64 by decide +kernel] at h

/-- A double is a safe integer exactly where it is rounded from one below `2 ^ 53`. -/
theorem isSafeInteger_toDouble_iff (n : Nat) :
    (JsNumber.whole (toDouble n)).isSafeInteger = true ↔ n < 2 ^ 53 := by
  rw [JsNumber.isSafeInteger, decide_eq_true_iff, Int.natAbs_natCast, JsNumber.maxSafeInteger]
  constructor
  · intro h
    by_contra hge
    have hmono := toDouble_mono (Nat.le_of_not_lt hge)
    rw [show toDouble (2 ^ 53) = 2 ^ 53 by decide +kernel] at hmono
    omega
  · intro h
    rw [toDouble_of_lt h]
    omega

/-- The text of the double of a number of 64 bits is that of its shortest decimal. -/
theorem wholeText_toDouble {n : Nat} (hn : n ≤ u64Max) (hpos : 0 < n) :
    JsNumber.wholeText (toDouble n) = Nat.toDigits 10 (shortest (toDouble n)) := by
  have hhalf := le_two_mul_toDouble (shortest (toDouble n))
  have hbound := toDouble_le_two_pow_64 hn
  rw [toDouble_shortest hpos] at hhalf
  exact if_pos (by omega)

/-- **What the client makes of a number of 64 bits**: the number itself below `2 ^ 53`, and from
there on the shortest decimal of its double. -/
theorem parseEnvelope_ofNat (fraction : JsonNumber → JsNumber) {n : Nat} (hn : n ≤ u64Max) :
    parseEnvelope fraction (.number (.ofNat n)) =
      if n < 2 ^ 53 then .number (.whole n)
      else .string (String.ofList (Nat.toDigits 10 (shortest (toDouble n)))) := by
  have hbound := toDouble_le_two_pow_64 hn
  have hparse : parseNumber fraction (.ofNat n) = .whole (toDouble n) := by
    rw [parseNumber_ofNat, ofNat_of_le hbound]
  rw [parseEnvelope_number, hparse]
  by_cases hlt : n < 2 ^ 53
  · rw [if_pos ((isSafeInteger_toDouble_iff n).mpr hlt), if_pos hlt, toDouble_of_lt hlt]
  · rw [if_neg (mt (isSafeInteger_toDouble_iff n).mp hlt), if_neg hlt, JsNumber.text,
      if_neg (by omega), Int.natAbs_natCast, wholeText_toDouble hn (by omega)]

/-- A number or a decimal text that denotes a natural number. -/
def JsValue.Denotes (value : JsValue) (n : Nat) : Prop :=
  value = .number (.whole n) ∨
    ∃ digits, value = .string (String.ofList digits) ∧ digitsValue digits = some n

/-- A number is kept below `2 ^ 53`, and from there on where it comes back from its double's
print. -/
def Kept (n : Nat) : Prop := n < 2 ^ 53 ∨ ReadsBack n

/-- **A number of 64 bits comes back as itself exactly where it is kept.** -/
theorem denotes_parseEnvelope_iff (fraction : JsonNumber → JsNumber) {n : Nat} (hn : n ≤ u64Max) :
    (parseEnvelope fraction (.number (.ofNat n))).Denotes n ↔ Kept n := by
  rw [parseEnvelope_ofNat fraction hn]
  by_cases hlt : n < 2 ^ 53
  · rw [if_pos hlt]
    exact iff_of_true (Or.inl rfl) (Or.inl hlt)
  · rw [if_neg hlt, Kept, or_iff_right hlt, ← shortest_toDouble_eq_iff (by omega)]
    constructor
    · rintro (h | ⟨digits, h, hvalue⟩)
      · cases h
      · rw [JsValue.string.injEq, String.ofList_inj] at h
        rw [← h, digitsValue_toDigits] at hvalue
        exact Option.some.inj hvalue
    · intro h
      exact Or.inr ⟨_, rfl, by rw [digitsValue_toDigits, h]⟩

/-- What denotes a number converts to it. -/
theorem JsValue.Denotes.toBigInt {value : JsValue} {n : Nat} (h : value.Denotes n) :
    value.toBigInt = some (n : Int) := by
  rcases h with rfl | ⟨digits, rfl, hvalue⟩
  · rfl
  · rw [JsValue.toBigInt, String.toList_ofList]
    split
    · rename_i rest
      have hnone : digitsValue ('-' :: rest) = none := rfl
      rw [hnone] at hvalue
      cases hvalue
    · rw [hvalue]
      rfl

/-! ## Spans of time -/

theorem ofInt_of_natAbs_lt {q : Int} (h : q.natAbs < 2 ^ 53) : JsNumber.ofInt q = .whole q := by
  have hnat : JsNumber.ofNat q.natAbs = .whole q.natAbs := by
    have hdouble := toDouble_of_lt h
    rw [ofNat_of_le (by omega), hdouble]
  rw [JsNumber.ofInt, hnat]
  split
  · rename_i hneg
    rw [JsNumber.neg, Int.ofNat_natAbs_of_nonpos hneg.le, Int.neg_neg]
  · rename_i hnonneg
    rw [Int.natAbs_of_nonneg (Int.not_lt.mp hnonneg)]

/-- The milliseconds between two times that the client holds as they are. -/
theorem nanoSpanMs_of_denotes {start ended : JsValue} {n m : Nat} (hstart : start.Denotes n)
    (hended : ended.Denotes m) (hn : n ≤ u64Max) (hm : m ≤ u64Max) :
    nanoSpanMs start ended = some (.whole (((m : Int) - n).tdiv 1000000)) := by
  have hpresent : ended.orElse start = ended := by
    rcases hended with rfl | ⟨digits, rfl, -⟩
    · rfl
    · rfl
  have hsmall : (((m : Int) - n).tdiv 1000000).natAbs < 2 ^ 53 := by
    have hword : u64Max = 2 ^ 64 - 1 := rfl
    rw [Int.natAbs_tdiv]
    change ((m : Int) - n).natAbs / 1000000 < 2 ^ 53
    omega
  rw [nanoSpanMs, hpresent, hended.toBigInt, hstart.toBigInt]
  exact congrArg some (ofInt_of_natAbs_lt hsmall)

/-! ## The law -/

section Law

variable (number : Float → JsonNumber) (fraction : JsonNumber → JsNumber)

/-- The server renders a natural number as a JSON number at a path of a view. -/
def Renders (view : Http.View) (path : List JsonValue.Step) (n : Nat) : Prop :=
  (Http.renderView number view).atPath path = some (.number (.ofNat n))

/-- What the client holds at a path of a view. -/
def heldAt (view : Http.View) (path : List JsonValue.Step) : Option JsValue :=
  (parseEnvelope fraction (Http.renderView number view)).atPath path

theorem heldAt_of_renders {view : Http.View} {path : List JsonValue.Step} {n : Nat}
    (h : Renders number view path n) :
    heldAt number fraction view path = some (parseEnvelope fraction (.number (.ofNat n))) := by
  rw [heldAt, atPath_parseEnvelope, h, Option.map_some]

/-- **A rendered time survives exactly where it is kept.**  Whatever number of 64 bits the server
renders in a span, log or point view, the client holds a number or decimal text of it if and only
if it is below `2 ^ 53` or comes back from the print of its double; and the milliseconds between
two times that are kept are the quotient of their difference. -/
theorem rendered_exact_iff {view view' : Http.View} {path path' : List JsonValue.Step} {n m : Nat}
    (hn : n ≤ u64Max) (hm : m ≤ u64Max) (hrendered : Renders number view path n)
    (hrendered' : Renders number view' path' m) :
    ∃ start ended, heldAt number fraction view path = some start ∧
      heldAt number fraction view' path' = some ended ∧
      (start.Denotes n ↔ Kept n) ∧ (ended.Denotes m ↔ Kept m) ∧
      (Kept n → Kept m →
        nanoSpanMs start ended = some (.whole (((m : Int) - n).tdiv 1000000))) := by
  have hiff := denotes_parseEnvelope_iff fraction hn
  have hiff' := denotes_parseEnvelope_iff fraction hm
  refine ⟨_, _, heldAt_of_renders number fraction hrendered,
    heldAt_of_renders number fraction hrendered', hiff, hiff', fun hkept hkept' => ?_⟩
  exact nanoSpanMs_of_denotes (hiff.mpr hkept) (hiff'.mpr hkept') hn hm

end Law

/-- A span between two times. -/
def spanBetween (start ended : Nat) : Http.View :=
  .span ⟨none, ⟨0, { Span.bare 1 1 with
    startTimeUnixNano := start
    endTimeUnixNano := some ended }⟩⟩

def startPath : List JsonValue.Step := [.member "span", .member "start_time_unix_nano"]

def endPath : List JsonValue.Step := [.member "span", .member "end_time_unix_nano"]

theorem renders_startPath (number : Float → JsonNumber) (start ended : Nat) :
    Renders number (spanBetween start ended) startPath start :=
  Http.atPath_times number _ List.mem_cons_self

theorem renders_endPath (number : Float → JsonNumber) (start ended : Nat) :
    Renders number (spanBetween start ended) endPath ended :=
  Http.atPath_times number _ (List.mem_cons_of_mem _ List.mem_cons_self)

/-- The print of the doubles of a view that has none. -/
def noDouble : Float → JsonNumber := fun _ => .ofNat 0

/-- The client's reading of the literals with a fraction of a body that has none. -/
def noFraction : JsonNumber → JsNumber := fun _ => .fractional ""

theorem rendered_exact_iff_span :
    ∃ start ended,
      heldAt noDouble noFraction (spanBetween 1755200000000000000 1755200000150000000) startPath =
        some start ∧
      heldAt noDouble noFraction (spanBetween 1755200000000000000 1755200000150000000) endPath =
        some ended ∧
      (start.Denotes 1755200000000000000 ↔ Kept 1755200000000000000) ∧
      (ended.Denotes 1755200000150000000 ↔ Kept 1755200000150000000) ∧
      (Kept 1755200000000000000 → Kept 1755200000150000000 → nanoSpanMs start ended =
        some (.whole (((1755200000150000000 : Nat) - (1755200000000000000 : Nat) : Int).tdiv
          1000000))) :=
  rendered_exact_iff noDouble noFraction (by decide) (by decide) (renders_startPath _ _ _)
    (renders_endPath _ _ _)

/-- A span that starts one nanosecond after a millisecond and ends at the next one is held as one
that takes a whole millisecond. -/
theorem rendered_oneNanosecondLate :
    ¬ ∀ (number : Float → JsonNumber) (fraction : JsonNumber → JsNumber) (view view' : Http.View)
      (path path' : List JsonValue.Step) (n m : Nat), n ≤ u64Max → m ≤ u64Max →
      Renders number view path n → Renders number view' path' m →
      ∃ start ended, heldAt number fraction view path = some start ∧
        heldAt number fraction view' path' = some ended ∧ start.Denotes n ∧ ended.Denotes m ∧
        nanoSpanMs start ended = some (.whole (((m : Int) - n).tdiv 1000000)) := by
  intro h
  have hstart := renders_startPath noDouble 1700000000000000001 1700000000001000000
  have hended := renders_endPath noDouble 1700000000000000001 1700000000001000000
  obtain ⟨start, ended, hheld, hheld', -, -, hspan⟩ := h noDouble noFraction _ _ _ _ _ _
    (by decide) (by decide) hstart hended
  rw [heldAt_of_renders noDouble noFraction hstart] at hheld
  rw [heldAt_of_renders noDouble noFraction hended] at hheld'
  cases hheld
  cases hheld'
  revert hspan
  decide +kernel

end RuntimeTrail.Web
