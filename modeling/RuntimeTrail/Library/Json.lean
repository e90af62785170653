import RuntimeTrail.Library.Utf8

/-!
# JSON values and their compact print

A number is kept as its literal, and an object as its entries in the order they are
printed.  Printing loses nothing: two values with one print are the same
(`print_injective`), whatever follows them, as long as it does not go on with a
number's literal (`told`).

* **strings** — `escape`, undone by `unescape`;
* **values** — `print`, by its opening character (`kindOf_print`), and `told`;
* **what a reader holds** — `Canonical`: keys in order, and numbers of its own.
-/

namespace Library

/-! ## Numbers and strings -/

/-- The characters a number's literal is written in. -/
def isNumberChar (c : Char) : Bool :=
  c.isDigit || c == '-' || c == '+' || c == '.' || c == 'e' || c == 'E'

/-- The literal of a number. -/
structure JsonNumber where
  literal : List Char
  nonempty : literal ≠ []
  digits : ∀ c ∈ literal, isNumberChar c = true
deriving DecidableEq

namespace JsonNumber

theorem isNumberChar_of_toDigits {n : Nat} {c : Char} (hc : c ∈ Nat.toDigits 10 n) :
    isNumberChar c = true := by
  simp [isNumberChar, Nat.isDigit_of_mem_toDigits (by decide) (by decide) hc]

def ofNat (n : Nat) : JsonNumber where
  literal := Nat.toDigits 10 n
  nonempty := Nat.toDigits_ne_nil
  digits _ hc := isNumberChar_of_toDigits hc

/-- The number below zero of a magnitude. -/
def neg (n : Nat) : JsonNumber where
  literal := '-' :: Nat.toDigits 10 n
  nonempty := List.cons_ne_nil _ _
  digits c hc := by
    rcases List.mem_cons.mp hc with rfl | hc
    · rfl
    · exact isNumberChar_of_toDigits hc

def ofInt : Int → JsonNumber
  | .ofNat n => ofNat n
  | .negSucc n => neg (n + 1)

end JsonNumber

/-- The double quote that ends a string, and the backslash that escapes in it. -/
def quoteChar : Char := '\x22'
def backslash : Char := '\x5c'

/-- The hexadecimal digit of a number below 16. -/
def hexDigit (n : Nat) : Char := "0123456789abcdef".toList.getD n '0'

/-- How a character is written inside a string. -/
def escape (c : Char) : List Char :=
  if c = quoteChar then [backslash, quoteChar]
  else if c = backslash then [backslash, backslash]
  else if c = '\x08' then [backslash, 'b']
  else if c = '\x0c' then [backslash, 'f']
  else if c = '\n' then [backslash, 'n']
  else if c = '\r' then [backslash, 'r']
  else if c = '\t' then [backslash, 't']
  else if c.toNat < 0x20 then
    [backslash, 'u', '0', '0', hexDigit (c.toNat / 16), hexDigit (c.toNat % 16)]
  else [c]

/-- The value of a hexadecimal digit. -/
def hexValue (c : Char) : Nat := "0123456789abcdef".toList.idxOf c

/-- The character behind a backslash, with what is left. -/
def unescapeShort : List Char → Option (Char × List Char)
  | 'u' :: '0' :: '0' :: high :: low :: rest =>
    some (Char.ofNat (16 * hexValue high + hexValue low), rest)
  | 'b' :: rest => some ('\x08', rest)
  | 'f' :: rest => some ('\x0c', rest)
  | 'n' :: rest => some ('\n', rest)
  | 'r' :: rest => some ('\r', rest)
  | 't' :: rest => some ('\t', rest)
  | c :: rest => some (c, rest)
  | [] => none

/-- Reads one character of a string back; its end has none. -/
def unescape : List Char → Option (Char × List Char)
  | [] => none
  | c :: rest =>
    if c = quoteChar then none else if c = backslash then unescapeShort rest else some (c, rest)

/-- **Escaping is undone**, whatever follows. -/
theorem unescape_escape (c : Char) (rest : List Char) :
    unescape (escape c ++ rest) = some (c, rest) := by
  unfold escape
  split
  · rename_i h
    subst h
    rfl
  split
  · rename_i h
    subst h
    rfl
  split
  · rename_i h
    subst h
    rfl
  split
  · rename_i h
    subst h
    rfl
  split
  · rename_i h
    subst h
    rfl
  split
  · rename_i h
    subst h
    rfl
  split
  · rename_i h
    subst h
    rfl
  split
  · rename_i hcontrol
    have hvalue : ∀ n < 0x20, 16 * hexValue (hexDigit (n / 16)) + hexValue (hexDigit (n % 16)) = n :=
      by decide
    change some (Char.ofNat _, rest) = _
    rw [hvalue c.toNat hcontrol, Char.ofNat_toNat]
  · rename_i hquote hback _ _ _ _ _ _
    rw [List.singleton_append, unescape, if_neg hquote, if_neg hback]

/-- A string between its quotes. -/
def quote (text : String) : List Char :=
  quoteChar :: (text.toList.flatMap escape ++ [quoteChar])

/-- A string ends where its print does, whatever follows. -/
theorem quote_prefixFree {a b : String} {rest rest' : List Char}
    (h : quote a ++ rest = quote b ++ rest') : a = b ∧ rest = rest' := by
  have hinner : ∀ (cs ds : List Char), cs.flatMap escape ++ (quoteChar :: rest) =
      ds.flatMap escape ++ (quoteChar :: rest') → cs = ds ∧ rest = rest' := by
    intro cs
    induction cs with
    | nil =>
      intro ds heq
      cases ds with
      | nil => exact ⟨rfl, (List.cons.inj heq).2⟩
      | cons d ds =>
        have hread := congrArg unescape heq
        rw [List.flatMap_cons, List.append_assoc, unescape_escape] at hread
        cases hread
    | cons c cs ih =>
      intro ds heq
      have hread := congrArg unescape heq
      rw [List.flatMap_cons, List.append_assoc, unescape_escape] at hread
      cases ds with
      | nil => cases hread
      | cons d ds =>
        rw [List.flatMap_cons, List.append_assoc, unescape_escape] at hread
        obtain ⟨rfl, hrest⟩ := Prod.mk.inj (Option.some.inj hread)
        obtain ⟨rfl, hlast⟩ := ih ds hrest
        exact ⟨rfl, hlast⟩
  have hopen : a.toList.flatMap escape ++ (quoteChar :: rest) =
      b.toList.flatMap escape ++ (quoteChar :: rest') := by simpa [quote] using h
  obtain ⟨hsame, hrest⟩ := hinner _ _ hopen
  exact ⟨String.toList_inj.mp hsame, hrest⟩

/-! ## Values -/

/-- A JSON value. -/
inductive JsonValue where
  | null
  | bool (value : Bool)
  | number (value : JsonNumber)
  | string (value : String)
  | array (items : List JsonValue)
  | object (entries : List (String × JsonValue))

namespace JsonValue

/-- The member of an object under a key; nothing else has members. -/
def get (value : JsonValue) (key : String) : Option JsonValue :=
  match value with
  | object entries => entries.lookup key
  | _ => none

def asStr : JsonValue → Option String
  | string value => some value
  | _ => none

/-- Keys in the order of their characters. -/
def KeyBefore (a b : String) : Prop := List.Lex (fun c d => c.toNat < d.toNat) a.toList b.toList

instance : DecidableRel KeyBefore := fun a b =>
  inferInstanceAs (Decidable (List.Lex (fun c d => c.toNat < d.toNat) a.toList b.toList))

/-- A value whose objects are maps in key order, and whose numbers are among these. -/
inductive Canonical (numbers : JsonNumber → Prop) : JsonValue → Prop
  | null : Canonical numbers null
  | bool (value : Bool) : Canonical numbers (bool value)
  | number {value : JsonNumber} (held : numbers value) : Canonical numbers (number value)
  | string (value : String) : Canonical numbers (string value)
  | array {items : List JsonValue} (items_canonical : ∀ item ∈ items, Canonical numbers item) :
    Canonical numbers (array items)
  | object {entries : List (String × JsonValue)} (keys : (entries.map Prod.fst).Pairwise KeyBefore)
    (values : ∀ entry ∈ entries, Canonical numbers entry.2) : Canonical numbers (object entries)

section Canonical

variable {numbers : JsonNumber → Prop}

attribute [simp] Canonical.null Canonical.bool Canonical.string

@[simp]
theorem canonical_number_iff {value : JsonNumber} :
    (number value).Canonical numbers ↔ numbers value :=
  ⟨fun | .number h => h, Canonical.number⟩

@[simp]
theorem canonical_array_iff {items : List JsonValue} :
    (array items).Canonical numbers ↔ ∀ item ∈ items, item.Canonical numbers :=
  ⟨fun | .array h => h, Canonical.array⟩

@[simp]
theorem canonical_object_iff {entries : List (String × JsonValue)} :
    (object entries).Canonical numbers ↔ (entries.map Prod.fst).Pairwise KeyBefore ∧
      ∀ entry ∈ entries, entry.2.Canonical numbers :=
  ⟨fun | .object hkeys hvalues => ⟨hkeys, hvalues⟩, fun h => .object h.1 h.2⟩

/-- A member of a canonical value is one. -/
theorem Canonical.get {value member : JsonValue} (h : value.Canonical numbers) {key : String}
    (hget : value.get key = some member) : member.Canonical numbers := by
  cases h with
  | object keys values =>
    obtain ⟨before, behind, rfl, -⟩ := List.lookup_eq_some_iff.mp hget
    exact values (key, member) (List.mem_append_right _ List.mem_cons_self)
  | _ => cases hget

end Canonical

mutual

/-- The compact print of a value. -/
def print : JsonValue → List Char
  | null => "null".toList
  | bool true => "true".toList
  | bool false => "false".toList
  | number value => value.literal
  | string value => quote value
  | array items => '[' :: printItems items
  | object entries => '{' :: printEntries entries

/-- The items of an array, and its closing bracket. -/
def printItems : List JsonValue → List Char
  | [] => [']']
  | item :: items => print item ++ printMoreItems items

def printMoreItems : List JsonValue → List Char
  | [] => [']']
  | item :: items => ',' :: (print item ++ printMoreItems items)

/-- The entries of an object, and its closing brace. -/
def printEntries : List (String × JsonValue) → List Char
  | [] => ['}']
  | (key, value) :: entries => quote key ++ ':' :: (print value ++ printMoreEntries entries)

def printMoreEntries : List (String × JsonValue) → List Char
  | [] => ['}']
  | (key, value) :: entries =>
    ',' :: (quote key ++ ':' :: (print value ++ printMoreEntries entries))

end

/-- The six kinds of a value. -/
inductive Kind where
  | null | bool | number | string | array | object
deriving DecidableEq

def kind : JsonValue → Kind
  | null => .null
  | bool _ => .bool
  | number _ => .number
  | string _ => .string
  | array _ => .array
  | object _ => .object

/-- The kind of value a character opens. -/
def kindOf (c : Char) : Option Kind :=
  if c = 'n' then some .null
  else if c = 't' ∨ c = 'f' then some .bool
  else if c = quoteChar then some .string
  else if c = '[' then some .array
  else if c = '{' then some .object
  else if isNumberChar c then some .number
  else none

theorem kindOf_number {c : Char} (h : isNumberChar c = true) : kindOf c = some .number := by
  have hne : ∀ d, isNumberChar d = false → c ≠ d := by
    rintro d hd rfl
    rw [h] at hd
    cases hd
  unfold kindOf
  rw [if_neg (hne 'n' (by decide)), if_neg (not_or.mpr ⟨hne 't' (by decide), hne 'f' (by decide)⟩),
    if_neg (hne quoteChar (by decide)), if_neg (hne '[' (by decide)),
    if_neg (hne '{' (by decide)), if_pos h]

/-- A value's print opens with a character of its kind. -/
theorem kindOf_print (value : JsonValue) (rest : List Char) :
    ∃ c tail, print value ++ rest = c :: tail ∧ kindOf c = some value.kind := by
  cases value with
  | null => exact ⟨_, _, rfl, rfl⟩
  | bool value => cases value <;> exact ⟨_, _, rfl, rfl⟩
  | number value =>
    obtain ⟨c, tail, hliteral⟩ := List.exists_cons_of_ne_nil value.nonempty
    refine ⟨c, tail ++ rest, by rw [print, hliteral]; rfl, kindOf_number ?_⟩
    exact value.digits c (hliteral ▸ List.mem_cons_self)
  | string value => exact ⟨_, _, rfl, rfl⟩
  | array items => exact ⟨_, _, rfl, rfl⟩
  | object entries => exact ⟨_, _, rfl, rfl⟩

/-- What may follow a print: nothing that goes on with a number. -/
def Ends (rest : List Char) : Prop := ∀ c ∈ rest.head?, isNumberChar c = false

theorem ends_items (items : List JsonValue) (rest : List Char) :
    Ends (printMoreItems items ++ rest) := by
  cases items with
  | nil => rintro c ⟨⟩; rfl
  | cons item items => rintro c ⟨⟩; rfl

theorem ends_entries (entries : List (String × JsonValue)) (rest : List Char) :
    Ends (printMoreEntries entries ++ rest) := by
  cases entries with
  | nil => rintro c ⟨⟩; rfl
  | cons entry entries => rintro c ⟨⟩; rfl

/-- A literal ends where its characters do. -/
theorem literal_prefixFree {a b : JsonNumber} {rest rest' : List Char} (hrest : Ends rest)
    (hrest' : Ends rest') (h : a.literal ++ rest = b.literal ++ rest') : a = b ∧ rest = rest' := by
  have htake : ∀ (n : JsonNumber) {rest}, Ends rest →
      (n.literal ++ rest).takeWhile isNumberChar = n.literal := by
    intro n rest hends
    rw [List.takeWhile_append_of_pos n.digits]
    cases rest with
    | nil => exact List.append_nil _
    | cons c rest =>
      rw [List.takeWhile_cons_of_neg (by simpa using hends c rfl), List.append_nil]
  have hliteral : a.literal = b.literal := by rw [← htake a hrest, h, htake b hrest']
  refine ⟨?_, List.append_cancel_left (hliteral ▸ h)⟩
  cases a
  cases b
  obtain rfl := hliteral
  rfl

/-! ## Two prints told apart -/

/-- Values that open alike are of one kind. -/
theorem kind_eq_of_print {a b : JsonValue} {rest rest' : List Char}
    (h : print a ++ rest = print b ++ rest') : a.kind = b.kind := by
  obtain ⟨c, tail, hprint, hkind⟩ := kindOf_print a rest
  obtain ⟨c', tail', hprint', hkind'⟩ := kindOf_print b rest'
  rw [hprint, hprint'] at h
  obtain ⟨rfl, -⟩ := List.cons.inj h
  exact Option.some.inj (hkind.symm.trans hkind')

/-- A value's print, and nothing else of one bracket. -/
theorem print_ne_close {value : JsonValue} {rest rest' : List Char} {close : Char}
    (hclose : kindOf close = none) : print value ++ rest ≠ close :: rest' := by
  intro h
  obtain ⟨c, tail, hprint, hkind⟩ := kindOf_print value rest
  rw [hprint] at h
  obtain ⟨rfl, -⟩ := List.cons.inj h
  rw [hclose] at hkind
  cases hkind

/-- One value is told from any other. -/
def Told (a : JsonValue) : Prop :=
  ∀ b rest rest', Ends rest → Ends rest' → print a ++ rest = print b ++ rest' →
    a = b ∧ rest = rest'

/-- What closes itself is told from any other of its kind. -/
def ToldWith {α : Type} (printed : List α → List Char) (items : List α) : Prop :=
  ∀ items' rest rest', printed items ++ rest = printed items' ++ rest' →
    items = items' ∧ rest = rest'

theorem told_items {item : JsonValue} {items : List JsonValue} (hitem : item.Told)
    (hmore : ToldWith printMoreItems items) {item' : JsonValue} {items' : List JsonValue}
    {rest rest' : List Char} (h : print item ++ (printMoreItems items ++ rest) =
      print item' ++ (printMoreItems items' ++ rest')) :
    item :: items = item' :: items' ∧ rest = rest' := by
  obtain ⟨rfl, hbehind⟩ := hitem _ _ _ (ends_items _ _) (ends_items _ _) h
  obtain ⟨rfl, hrest⟩ := hmore _ _ _ hbehind
  exact ⟨rfl, hrest⟩

theorem told_entries {key : String} {value : JsonValue} {entries : List (String × JsonValue)}
    (hvalue : value.Told) (hmore : ToldWith printMoreEntries entries) {key' : String}
    {value' : JsonValue} {entries' : List (String × JsonValue)} {rest rest' : List Char}
    (h : quote key ++ (':' :: (print value ++ (printMoreEntries entries ++ rest))) =
      quote key' ++ (':' :: (print value' ++ (printMoreEntries entries' ++ rest')))) :
    (key, value) :: entries = (key', value') :: entries' ∧ rest = rest' := by
  obtain ⟨rfl, hbehind⟩ := quote_prefixFree h
  obtain ⟨rfl, hentries⟩ :=
    hvalue _ _ _ (ends_entries _ _) (ends_entries _ _) (List.cons.inj hbehind).2
  obtain ⟨rfl, hrest⟩ := hmore _ _ _ hentries
  exact ⟨rfl, hrest⟩

theorem told_null : null.Told := by
  intro b rest rest' _ _ h
  have hkind := kind_eq_of_print h
  cases b with
  | null => exact ⟨rfl, List.append_cancel_left h⟩
  | _ => cases hkind

theorem told_bool (value : Bool) : (bool value).Told := by
  intro b rest rest' _ _ h
  have hkind := kind_eq_of_print h
  cases b with
  | bool value' =>
    cases value with
    | true =>
      cases value' with
      | true => exact ⟨rfl, List.append_cancel_left h⟩
      | false => cases h
    | false =>
      cases value' with
      | true => cases h
      | false => exact ⟨rfl, List.append_cancel_left h⟩
  | _ => cases hkind

theorem told_number (value : JsonNumber) : (number value).Told := by
  intro b rest rest' hrest hrest' h
  have hkind := kind_eq_of_print h
  cases b with
  | number value' =>
    obtain ⟨rfl, hlast⟩ := literal_prefixFree hrest hrest' h
    exact ⟨rfl, hlast⟩
  | _ => cases hkind

theorem told_string (value : String) : (string value).Told := by
  intro b rest rest' _ _ h
  have hkind := kind_eq_of_print h
  cases b with
  | string value' =>
    obtain ⟨rfl, hlast⟩ := quote_prefixFree h
    exact ⟨rfl, hlast⟩
  | _ => cases hkind

theorem told_array {items : List JsonValue} (hitems : ToldWith printItems items) :
    (array items).Told := by
  intro b rest rest' _ _ h
  have hkind := kind_eq_of_print h
  cases b with
  | array items' =>
    obtain ⟨rfl, hlast⟩ := hitems _ _ _ (List.cons.inj h).2
    exact ⟨rfl, hlast⟩
  | _ => cases hkind

theorem told_object {entries : List (String × JsonValue)}
    (hentries : ToldWith printEntries entries) : (object entries).Told := by
  intro b rest rest' _ _ h
  have hkind := kind_eq_of_print h
  cases b with
  | object entries' =>
    obtain ⟨rfl, hlast⟩ := hentries _ _ _ (List.cons.inj h).2
    exact ⟨rfl, hlast⟩
  | _ => cases hkind

theorem told_noItems : ToldWith printItems [] ∧ ToldWith printMoreItems [] := by
  constructor
  · intro items' rest rest' h
    cases items' with
    | nil => exact ⟨rfl, (List.cons.inj h).2⟩
    | cons item' items' =>
      simp only [printItems, List.append_assoc] at h
      exact absurd h.symm (print_ne_close (by decide))
  · intro items' rest rest' h
    cases items' with
    | nil => exact ⟨rfl, (List.cons.inj h).2⟩
    | cons item' items' => exact absurd (List.cons.inj h).1 (by decide)

theorem told_cons_items {item : JsonValue} {items : List JsonValue} (hitem : item.Told)
    (hmore : ToldWith printMoreItems items) :
    ToldWith printItems (item :: items) ∧ ToldWith printMoreItems (item :: items) := by
  constructor
  · intro items' rest rest' h
    cases items' with
    | nil =>
      simp only [printItems, List.append_assoc] at h
      exact absurd h (print_ne_close (by decide))
    | cons item' items' =>
      rw [printItems, printItems, List.append_assoc, List.append_assoc] at h
      exact told_items hitem hmore h
  · intro items' rest rest' h
    cases items' with
    | nil => exact absurd (List.cons.inj h).1 (by decide)
    | cons item' items' =>
      rw [printMoreItems, printMoreItems, List.cons_append, List.cons_append, List.append_assoc,
        List.append_assoc] at h
      exact told_items hitem hmore (List.cons.inj h).2

theorem told_noEntries : ToldWith printEntries [] ∧ ToldWith printMoreEntries [] := by
  constructor
  · intro entries' rest rest' h
    cases entries' with
    | nil => exact ⟨rfl, (List.cons.inj h).2⟩
    | cons entry' entries' => exact absurd (List.cons.inj h).1 (by decide)
  · intro entries' rest rest' h
    cases entries' with
    | nil => exact ⟨rfl, (List.cons.inj h).2⟩
    | cons entry' entries' => exact absurd (List.cons.inj h).1 (by decide)

theorem told_cons_entries {entry : String × JsonValue} {entries : List (String × JsonValue)}
    (hvalue : entry.2.Told) (hmore : ToldWith printMoreEntries entries) :
    ToldWith printEntries (entry :: entries) ∧ ToldWith printMoreEntries (entry :: entries) := by
  obtain ⟨key, value⟩ := entry
  constructor
  · intro entries' rest rest' h
    cases entries' with
    | nil => exact absurd (List.cons.inj h).1 (by decide)
    | cons entry' entries' =>
      simp only [printEntries, List.append_assoc, List.cons_append] at h
      exact told_entries hvalue hmore h
  · intro entries' rest rest' h
    cases entries' with
    | nil => exact absurd (List.cons.inj h).1 (by decide)
    | cons entry' entries' =>
      simp only [printMoreEntries, List.append_assoc, List.cons_append] at h
      exact told_entries hvalue hmore (List.cons.inj h).2

/-- **Printing is prefix-free**, in front of anything that does not go on with a number. -/
theorem told (a : JsonValue) : a.Told :=
  @JsonValue.rec Told (fun items => ToldWith printItems items ∧ ToldWith printMoreItems items)
    (fun entries => ToldWith printEntries entries ∧ ToldWith printMoreEntries entries)
    (fun entry => entry.2.Told) told_null told_bool told_number told_string
    (fun _ hitems => told_array hitems.1) (fun _ hentries => told_object hentries.1)
    told_noItems (fun _ _ hitem hitems => told_cons_items hitem hitems.2)
    told_noEntries (fun _ _ hvalue hentries => told_cons_entries hvalue hentries.2)
    (fun _ _ hvalue => hvalue) a

/-- **Printing loses nothing.** -/
theorem print_injective : Function.Injective print := by
  intro a b h
  exact (told a b [] [] (fun _ hc => by cases hc) (fun _ hc => by cases hc) (by rw [h])).1

/-- The bytes of a value's print. -/
def toBytes (value : JsonValue) : List UInt8 := utf8Bytes (print value)

theorem toBytes_injective : Function.Injective toBytes :=
  utf8Bytes_injective.comp print_injective

end JsonValue

end Library
