import RuntimeTrail.Ingestion.Decode

/-!
# What the transports read of a request's headers

Before a body is read, a request is judged by two headers: the type it declares its
body to be, and the length.  A value that is not visible text is read as none.

* **the gates** — `contentTypeGate`, `isGrpcContentType`, `declaredOverCeiling`;
* **the charge** — `declaredLengthBounded`, what a body that passes the gates can grow
  to: `declaredLengthBounded_le`, `le_declaredLengthBounded`;
* **the dialects** — `not_isGrpcContentType_of_gate`: what one transport accepts as its
  own encoding, the other one refuses.
-/

namespace RuntimeTrail

open Library

/-- A header's value. -/
abbrev HeaderValue := List UInt8

/-- The text of a value that is visible ASCII. -/
def HeaderValue.toStr (value : HeaderValue) : Option (List Char) :=
  if value.all fun b => (32 ≤ b && b < 127) || b == 9 then
    some (value.map fun b => Char.ofNat b.toNat)
  else none

/-- The headers the transports read, the first value of each. -/
structure HeaderMap where
  contentType : Option HeaderValue
  contentLength : Option HeaderValue
deriving DecidableEq

/-! ## Lengths -/

/-- One more digit of a 64-bit number. -/
def pushDigit (number : Nat) (c : Char) : Option Nat :=
  if c.isDigit then
    if number * 10 + (c.toNat - '0'.toNat) ≤ u64Max then
      some (number * 10 + (c.toNat - '0'.toNat))
    else none
  else none

/-- The 64-bit number a text spells: digits, after at most one plus. -/
def parseU64 (text : List Char) : Option Nat :=
  let digits := match text with
    | '+' :: rest => rest
    | _ => text
  if digits.isEmpty then none else digits.foldlM pushDigit 0

/-- What is left of a text after this one, where it begins with it. -/
def stripStart (start text : List Char) : Option (List Char) :=
  if start <+: text then some (text.drop start.length) else none

namespace HeaderMap

/-- The length a request declares. -/
def declaredLength (headers : HeaderMap) : Option Nat :=
  (headers.contentLength.bind HeaderValue.toStr).bind parseU64

/-- Whether the request declares a content length over the ceiling. -/
def declaredOverCeiling (headers : HeaderMap) (ceilingBytes : Nat) : Bool :=
  match headers.declaredLength with
  | none => false
  | some declared => ceilingBytes < declared

/-- The charge a request makes against the body budget: its declared length, bounded to the
ceiling; the ceiling where it declares none. -/
def declaredLengthBounded (headers : HeaderMap) (ceilingBytes : Nat) : Nat :=
  match headers.declaredLength with
  | none => ceilingBytes
  | some declared => min declared ceilingBytes

theorem declaredLengthBounded_le (headers : HeaderMap) (ceilingBytes : Nat) :
    headers.declaredLengthBounded ceilingBytes ≤ ceilingBytes := by
  unfold declaredLengthBounded
  split
  · exact le_rfl
  · exact min_le_right _ _

/-- A body within the ceiling, and within what was declared of it, is within the charge. -/
theorem le_declaredLengthBounded {headers : HeaderMap} {ceilingBytes bytes : Nat}
    (hceiling : bytes ≤ ceilingBytes)
    (hdeclared : ∀ declared, headers.declaredLength = some declared → bytes ≤ declared) :
    bytes ≤ headers.declaredLengthBounded ceilingBytes := by
  unfold declaredLengthBounded
  split
  · exact hceiling
  · rename_i declared hlength
    exact le_min (hdeclared declared hlength) hceiling

/-! ## Types -/

/-- The one content type the export endpoints speak. -/
def protobufMediaType : List Char := "application/x-protobuf".toList

/-- What every content type of the other transport begins with. -/
def grpcMediaType : List Char := "application/grpc".toList

def toAsciiLowercase (text : List Char) : List Char := text.map Char.toLower

/-- The content type the export endpoints refuse a request for, as it was declared. -/
def contentTypeGate (headers : HeaderMap) : Option (List Char) :=
  match headers.contentType.bind HeaderValue.toStr with
  | none => none
  | some declared =>
    match (declared.splitOn ';').head? with
    | none => none
    | some media =>
      if toAsciiLowercase (trim Decode.isWhitespace media) = toAsciiLowercase protobufMediaType then
        none
      else some declared

/-- Whether a request speaks the gRPC dialect: bare or with the proto message format, with
parameters or without. -/
def isGrpcContentType (headers : HeaderMap) : Bool :=
  match headers.contentType.bind HeaderValue.toStr with
  | none => false
  | some value =>
    match stripStart grpcMediaType (toAsciiLowercase value) with
    | none => false
    | some rest =>
      let afterDialect := (stripStart "+proto".toList rest).getD rest
      let afterDialect := afterDialect.dropWhile fun c => c == ' ' || c == '\t'
      afterDialect.isEmpty || afterDialect.head? == some ';'

/-! ## The two dialects -/

theorem prefix_of_isGrpcContentType {headers : HeaderMap} {value : List Char}
    (hvalue : headers.contentType.bind HeaderValue.toStr = some value)
    (h : headers.isGrpcContentType = true) : grpcMediaType <+: toAsciiLowercase value := by
  unfold isGrpcContentType stripStart at h
  rw [hvalue] at h
  by_contra hother
  simp only [if_neg hother] at h
  cases h

/-- A text that begins with no whitespace, trimmed, is the beginning of that text. -/
theorem isPrefix_of_trim {text : List Char}
    (h : ∀ c ∈ text.head?, Decode.isWhitespace c = false) : trim Decode.isWhitespace text <+: text := by
  have hkept : text.dropWhile Decode.isWhitespace = text := by
    cases text with
    | nil => rfl
    | cons c rest => rw [List.dropWhile_cons_of_neg (by rw [h c rfl]; exact Bool.false_ne_true)]
  unfold trim
  rw [hkept]
  exact List.rdropWhile_prefix _ _

/-- The letters that lower to `a` are two, and neither is whitespace. -/
theorem not_isWhitespace_of_toLower {c : Char} (h : c.toLower = 'a') :
    Decode.isWhitespace c = false := by
  have hcode : c.toNat = 97 ∨ c.toNat = 65 := by
    unfold Char.toLower at h
    split at h
    · rename_i hupper
      have hlow : 65 ≤ c.val.toNat := hupper.1
      have hhigh : c.val.toNat ≤ 90 := hupper.2
      have hval : (c.val + 32).toNat = 97 := congrArg (fun c : Char => c.val.toNat) h
      rw [UInt32.toNat_add] at hval
      have hcode : c.toNat = c.val.toNat := rfl
      have hshift : (32 : UInt32).toNat = 32 := rfl
      omega
    · exact Or.inl (h ▸ rfl)
  unfold Decode.isWhitespace
  rcases hcode with hcode | hcode <;> rw [hcode] <;> rfl

/-- **The two dialects.**  A content type that is declared is refused by one transport at least. -/
theorem not_isGrpcContentType_of_gate {headers : HeaderMap} {value : List Char}
    (hvalue : headers.contentType.bind HeaderValue.toStr = some value)
    (hgate : headers.contentTypeGate = none) : headers.isGrpcContentType = false := by
  by_contra hspoken
  have hgrpc := prefix_of_isGrpcContentType hvalue (eq_true_of_ne_false hspoken)
  unfold contentTypeGate at hgate
  rw [hvalue] at hgate
  cases hmedia : (value.splitOn ';').head? with
  | none =>
    rw [List.head?_eq_none_iff] at hmedia
    exact List.splitOn_ne_nil ';' value hmedia
  | some media =>
    simp only [hmedia] at hgate
    split at hgate
    · rename_i hsame
      -- the declared type begins with a letter, so its trimming takes nothing from its front
      have hstart : media <+: value := prefix_of_head?_splitOn hmedia
      have hfront : ∀ c ∈ media.head?, Decode.isWhitespace c = false := by
        intro c hc
        have hletter : c.toLower = 'a' := by
          obtain ⟨rest, hrest⟩ := hgrpc
          obtain ⟨tail, rfl⟩ := hstart
          cases media with
          | nil => cases hc
          | cons first rest' =>
            obtain rfl := Option.some.inj hc
            exact (List.cons.inj hrest).1.symm
        exact not_isWhitespace_of_toLower hletter
      have hprotobuf : toAsciiLowercase (trim Decode.isWhitespace media) <+: toAsciiLowercase value :=
        ((isPrefix_of_trim hfront).trans hstart).map Char.toLower
      rw [hsame] at hprotobuf
      rcases List.prefix_or_prefix_of_prefix hgrpc hprotobuf with h | h
      · exact absurd h (by decide)
      · exact absurd h (by decide)
    · cases hgate

end HeaderMap

end RuntimeTrail
