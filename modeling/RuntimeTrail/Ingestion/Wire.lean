import RuntimeTrail.Ingestion.Recover

/-!
# What the wire can say

Which wire values and which trace states are accepted, exactly, and as what.

* **values** — `Within`: the nodes of a wire value, at every level; `Represents`: what
  the model asks of one node alone.  `wireValue_exact`: a value is accepted exactly
  when each of its nodes is, and reads back as it was sent;
* **trace states** — `traceState_exact`: empty, or within both caps with an equals
  sign in every member; and what was accepted is printed and accepted again.
-/

namespace RuntimeTrail

open Library

namespace Otlp

/-! ## Nodes -/

/-- The kind of value a node carries, if it carries one. -/
def AnyValue.kind : AnyValue → Option ValueKind
  | .unset => none
  | .stringValue _ => some .string
  | .boolValue _ => some .bool
  | .intValue _ => some .int
  | .doubleValue _ => some .double
  | .arrayValue _ => some .array
  | .kvlistValue _ => some .kvList
  | .bytesValue _ => some .bytes
  | .stringValueStrindex _ => none

def KeyValue.value : KeyValue → Option AnyValue
  | .mk _ value _ => value

def KeyValue.keyStrindex : KeyValue → Int
  | .mk _ _ keyStrindex => keyStrindex

/-- The nodes of a wire value: itself, and those of its items and of its entries' values. -/
inductive Within (node : AnyValue) : AnyValue → Prop
  | here : Within node node
  | item {item : AnyValue} {values : List AnyValue} (mem : item ∈ values)
    (below : Within node item) : Within node (.arrayValue values)
  | entry {kv : KeyValue} {any : AnyValue} {values : List KeyValue} (mem : kv ∈ values)
    (value : kv.value = some any) (below : Within node any) : Within node (.kvlistValue values)

/-- What the model asks of one node: a value, in an array of one kind, under keys of its own. -/
def Represents : AnyValue → Prop
  | .unset => False
  | .stringValueStrindex _ => False
  | .arrayValue values => ∀ a ∈ values, ∀ b ∈ values, a.kind = b.kind
  | .kvlistValue values => (values.map KeyValue.key).Nodup ∧
    ∀ kv ∈ values, kv.keyStrindex = 0 ∧ kv.value.isSome
  | _ => True

/-! ## The model's own laws -/

theorem homogeneousScan_eq_ok_iff {kind : ValueKind} {index : Nat} {items : List Value} :
    HomogeneousArray.scan kind index items = .ok () ↔ ∀ item ∈ items, item.kind = kind := by
  induction items generalizing index with
  | nil => exact ⟨fun _ item hitem => absurd hitem List.not_mem_nil, fun _ => rfl⟩
  | cons item items ih =>
    rw [HomogeneousArray.scan, List.forall_mem_cons]
    by_cases hkind : item.kind = kind
    · rw [if_neg (not_not.mpr hkind), ih]
      exact ⟨fun h => ⟨hkind, h⟩, fun h => h.2⟩
    · rw [if_pos hkind]
      exact ⟨fun h => (by cases h), fun h => absurd h.1 hkind⟩

/-- An array is built exactly from items of one kind. -/
theorem tryArray_eq_ok_iff {items : List Value} {value : Value} :
    Value.tryArray items = .ok value ↔
      (∀ a ∈ items, ∀ b ∈ items, a.kind = b.kind) ∧ value = .array items := by
  have hscan : (∃ kept, HomogeneousArray.tryFromItems items = .ok kept) ↔
      ∀ a ∈ items, ∀ b ∈ items, a.kind = b.kind := by
    cases items with
    | nil => exact ⟨fun _ a ha => absurd ha List.not_mem_nil, fun _ => ⟨_, rfl⟩⟩
    | cons first rest =>
      constructor
      · rintro ⟨kept, h⟩
        obtain ⟨_, hscan, _⟩ := bind_eq_ok_iff.mp h
        have hfirst : ∀ a ∈ first :: rest, a.kind = first.kind :=
          List.forall_mem_cons.mpr ⟨rfl, homogeneousScan_eq_ok_iff.mp hscan⟩
        exact fun a ha b hb => (hfirst a ha).trans (hfirst b hb).symm
      · intro h
        refine ⟨first :: rest, bind_eq_ok_iff.mpr ⟨(), ?_, rfl⟩⟩
        exact homogeneousScan_eq_ok_iff.mpr fun item hitem =>
          h item (List.mem_cons_of_mem _ hitem) first List.mem_cons_self
  constructor
  · intro h
    obtain ⟨kept, hkept, -⟩ := bind_eq_ok_iff.mp h
    exact ⟨hscan.mp ⟨kept, hkept⟩, tryArray_eq_ok h⟩
  · rintro ⟨hkinds, rfl⟩
    obtain ⟨kept, hkept⟩ := hscan.mpr hkinds
    have hbuilt : Value.tryArray items = .ok (.array kept) := bind_eq_ok_iff.mpr ⟨kept, hkept, rfl⟩
    rw [hbuilt, tryArray_eq_ok hbuilt]

theorem keyScan_eq_ok_iff {seen : List String} {entries : List (String × Value)} :
    KeyValueList.scan seen entries = .ok () ↔
      (entries.map Prod.fst).Nodup ∧ ∀ key ∈ entries.map Prod.fst, key ∉ seen := by
  induction entries generalizing seen with
  | nil => exact ⟨fun _ => ⟨List.nodup_nil, fun _ h => absurd h List.not_mem_nil⟩, fun _ => rfl⟩
  | cons entry entries ih =>
    obtain ⟨key, value⟩ := entry
    rw [KeyValueList.scan, List.map_cons, List.nodup_cons, List.forall_mem_cons]
    by_cases hseen : key ∈ seen
    · rw [if_pos hseen]
      exact ⟨fun h => (by cases h), fun h => absurd hseen h.2.1⟩
    · rw [if_neg hseen, ih]
      constructor
      · rintro ⟨hnodup, hfresh⟩
        refine ⟨⟨fun hmem => hfresh key hmem List.mem_cons_self, hnodup⟩, hseen, ?_⟩
        exact fun key' hkey' hmem => hfresh key' hkey' (List.mem_cons_of_mem _ hmem)
      · rintro ⟨⟨hnew, hnodup⟩, -, hfresh⟩
        refine ⟨hnodup, fun key' hkey' hmem => ?_⟩
        rcases List.mem_cons.mp hmem with rfl | hmem
        · exact hnew hkey'
        · exact hfresh key' hkey' hmem

/-- A key-value list is built exactly from entries of distinct keys. -/
theorem tryKvList_eq_ok_iff {entries : List (String × Value)} {value : Value} :
    Value.tryKvList entries = .ok value ↔
      (entries.map Prod.fst).Nodup ∧ value = .kvList entries := by
  constructor
  · intro h
    obtain ⟨kept, hkept, -⟩ := bind_eq_ok_iff.mp h
    obtain ⟨_, hscan, _⟩ := bind_eq_ok_iff.mp hkept
    exact ⟨(keyScan_eq_ok_iff.mp hscan).1, tryKvList_eq_ok h⟩
  · rintro ⟨hnodup, rfl⟩
    have hscan : KeyValueList.scan [] entries = .ok () :=
      keyScan_eq_ok_iff.mpr ⟨hnodup, fun _ _ => List.not_mem_nil⟩
    exact bind_eq_ok_iff.mpr ⟨entries, bind_eq_ok_iff.mpr ⟨(), hscan, rfl⟩, rfl⟩

/-! ## One node -/

/-- A value keeps the kind of its node. -/
theorem kind_of_wireAny {field : String} {any : AnyValue} {value : Value}
    (h : Decode.wireAny field any = .ok value) : any.kind = some value.kind := by
  cases any with
  | unset => exact absurd h (by simp [Decode.wireAny, Decode.unrepresentable])
  | stringValueStrindex => exact absurd h (by simp [Decode.wireAny, Decode.unrepresentable])
  | arrayValue values =>
    obtain ⟨items, _, hvalue⟩ := bind_eq_ok_iff.mp h
    rw [tryArray_eq_ok (mapError_eq_ok_iff.mp hvalue)]
    rfl
  | kvlistValue values =>
    obtain ⟨entries, _, hvalue⟩ := bind_eq_ok_iff.mp h
    rw [tryKvList_eq_ok (mapError_eq_ok_iff.mp hvalue)]
    rfl
  | _ => rw [← Except.ok.inj h]; rfl

theorem wireItems_eq_mapM (field : String) (values : List AnyValue) :
    Decode.wireItems field values = values.mapM (Decode.wireAny field) := by
  induction values with
  | nil => rfl
  | cons item values ih =>
    rw [Decode.wireItems, List.mapM_cons, ih]

theorem keyValues_eq_mapM (field : String) (values : List KeyValue) :
    Decode.keyValues field values = values.mapM (Decode.keyValue field) := by
  induction values with
  | nil => rfl
  | cons kv values ih =>
    rw [Decode.keyValues, List.mapM_cons, ih]

/-- An array is accepted with its items, of one kind. -/
theorem wireAny_array_iff {field : String} {values : List AnyValue} :
    (∃ value, Decode.wireAny field (.arrayValue values) = .ok value) ↔
      (∀ item ∈ values, ∃ value, Decode.wireAny field item = .ok value) ∧
        Represents (.arrayValue values) := by
  have hkinds : ∀ {items : List Value},
      List.Forall₂ (fun any value => Decode.wireAny field any = .ok value) values items →
        ((∀ a ∈ items, ∀ b ∈ items, a.kind = b.kind) ↔ Represents (.arrayValue values)) := by
    intro items hitems
    have hmap : values.map AnyValue.kind = (items.map Value.kind).map some := by
      rw [← List.forall₂_eq_eq_eq, List.map_map, List.forall₂_map_left_iff,
        List.forall₂_map_right_iff]
      exact hitems.imp fun _ _ h => kind_of_wireAny h
    have hitemKinds : (∀ a ∈ items, ∀ b ∈ items, a.kind = b.kind) ↔
        ∀ k ∈ (items.map Value.kind).map some, ∀ k' ∈ (items.map Value.kind).map some, k = k' := by
      simp
    rw [hitemKinds, ← hmap]
    simp [Represents]
  rw [← exists_mapM_eq_ok_iff]
  constructor
  · rintro ⟨value, h⟩
    obtain ⟨items, hitems, hvalue⟩ := bind_eq_ok_iff.mp h
    rw [wireItems_eq_mapM] at hitems
    refine ⟨⟨items, hitems⟩, (hkinds (mapM_eq_ok_iff.mp hitems)).mp ?_⟩
    exact (tryArray_eq_ok_iff.mp (mapError_eq_ok_iff.mp hvalue)).1
  · rintro ⟨⟨items, hitems⟩, hrepresents⟩
    refine ⟨.array items, bind_eq_ok_iff.mpr ⟨items, ?_, mapError_eq_ok_iff.mpr ?_⟩⟩
    · rw [wireItems_eq_mapM, hitems]
    · exact tryArray_eq_ok_iff.mpr ⟨(hkinds (mapM_eq_ok_iff.mp hitems)).mpr hrepresents, rfl⟩

/-- An entry is accepted under its own key. -/
theorem keyValue_eq_ok_iff {field : String} {kv : KeyValue} {entry : String × Value} :
    Decode.keyValue field kv = .ok entry ↔ kv.keyStrindex = 0 ∧ entry.1 = kv.key ∧
      ∃ any, kv.value = some any ∧ Decode.wireAny field any = .ok entry.2 := by
  obtain ⟨key, value, keyStrindex⟩ := kv
  obtain ⟨entryKey, entryValue⟩ := entry
  simp only [Decode.keyValue, KeyValue.keyStrindex, KeyValue.key, KeyValue.value]
  by_cases hindex : keyStrindex = 0
  · rw [if_neg (not_not.mpr hindex), bind_eq_ok_iff]
    constructor
    · rintro ⟨made, hmade, hentry⟩
      obtain ⟨rfl, rfl⟩ := Prod.mk.inj (Except.ok.inj hentry)
      cases value with
      | none => exact absurd hmade (by simp [Decode.wireValue, Decode.unrepresentable])
      | some any => exact ⟨hindex, rfl, any, rfl, hmade⟩
    · rintro ⟨-, rfl, any, rfl, hmade⟩
      exact ⟨entryValue, hmade, rfl⟩
  · rw [if_pos hindex]
    exact ⟨fun h => absurd h (by simp [Decode.unrepresentable]), fun h => absurd h.1 hindex⟩

/-- The entries decoded from a list are under the keys it sends, in order. -/
theorem keys_of_mapM {field : String} {pairs : List KeyValue} {entries : List (String × Value)}
    (h : pairs.mapM (Decode.keyValue field) = .ok entries) :
    entries.map Prod.fst = pairs.map KeyValue.key := by
  rw [eq_comm, ← List.forall₂_eq_eq_eq, List.forall₂_map_left_iff, List.forall₂_map_right_iff]
  exact (mapM_eq_ok_iff.mp h).imp fun _ _ h => (keyValue_eq_ok_iff.mp h).2.1.symm

/-- A key-value list is accepted with its entries, under distinct keys. -/
theorem wireAny_kvlist_iff {field : String} {values : List KeyValue} :
    (∃ value, Decode.wireAny field (.kvlistValue values) = .ok value) ↔
      (∀ kv ∈ values, ∀ any, kv.value = some any →
        ∃ value, Decode.wireAny field any = .ok value) ∧ Represents (.kvlistValue values) := by
  have heach : (∃ entries, values.mapM (Decode.keyValue field) = .ok entries) ↔
      (∀ kv ∈ values, ∀ any, kv.value = some any →
        ∃ value, Decode.wireAny field any = .ok value) ∧
          ∀ kv ∈ values, kv.keyStrindex = 0 ∧ kv.value.isSome := by
    rw [exists_mapM_eq_ok_iff, ← forall₂_and]
    refine forall₂_congr fun kv _ => ?_
    constructor
    · rintro ⟨entry, hentry⟩
      obtain ⟨hindex, -, any, hany, hvalue⟩ := keyValue_eq_ok_iff.mp hentry
      refine ⟨fun any' hany' => ?_, hindex, Option.isSome_of_eq_some hany⟩
      obtain rfl := Option.some.inj (hany.symm.trans hany')
      exact ⟨_, hvalue⟩
    · rintro ⟨haccepted, hindex, hset⟩
      obtain ⟨any, hany⟩ := Option.isSome_iff_exists.mp hset
      obtain ⟨value, hvalue⟩ := haccepted any hany
      exact ⟨(kv.key, value), keyValue_eq_ok_iff.mpr ⟨hindex, rfl, any, hany, hvalue⟩⟩
  constructor
  · rintro ⟨value, h⟩
    obtain ⟨entries, hentries, hvalue⟩ := bind_eq_ok_iff.mp h
    rw [keyValues_eq_mapM] at hentries
    obtain ⟨haccepted, hset⟩ := heach.mp ⟨entries, hentries⟩
    refine ⟨haccepted, ?_, hset⟩
    rw [← keys_of_mapM hentries]
    exact (tryKvList_eq_ok_iff.mp (mapError_eq_ok_iff.mp hvalue)).1
  · rintro ⟨haccepted, hnodup, hset⟩
    obtain ⟨entries, hentries⟩ := heach.mpr ⟨haccepted, hset⟩
    refine ⟨.kvList entries, bind_eq_ok_iff.mpr ⟨entries, ?_, mapError_eq_ok_iff.mpr ?_⟩⟩
    · rw [keyValues_eq_mapM, hentries]
    · refine tryKvList_eq_ok_iff.mpr ⟨?_, rfl⟩
      rw [keys_of_mapM hentries]
      exact hnodup

/-! ## Whole values -/

/-- **The induction over a wire value**: its items, and the values of its entries. -/
theorem AnyValue.induct {P : AnyValue → Prop}
    (leaf : ∀ any, (∀ values, any ≠ .arrayValue values) → (∀ values, any ≠ .kvlistValue values) →
      P any)
    (array : ∀ values, (∀ item ∈ values, P item) → P (.arrayValue values))
    (kvlist : ∀ values : List KeyValue, (∀ kv ∈ values, ∀ any, kv.value = some any → P any) →
      P (.kvlistValue values)) (any : AnyValue) : P any := by
  refine AnyValue.rec (motive_1 := P) (motive_2 := fun kv => ∀ any, kv.value = some any → P any)
    (motive_3 := fun values => ∀ item ∈ values, P item)
    (motive_4 := fun values => ∀ kv ∈ values, ∀ any, kv.value = some any → P any)
    (motive_5 := fun value => ∀ any, value = some any → P any)
    ?unset ?string ?bool ?int ?double ?array ?kvlist ?bytes ?strindex ?mk ?nil ?cons ?knil ?kcons
    ?none ?some any
  case array => exact array
  case kvlist => exact kvlist
  case mk => exact fun _ _ _ hvalue => hvalue
  case nil => exact fun item hitem => absurd hitem List.not_mem_nil
  case cons => exact fun item values hitem hvalues => List.forall_mem_cons.mpr ⟨hitem, hvalues⟩
  case knil => exact fun kv hkv => absurd hkv List.not_mem_nil
  case kcons => exact fun kv values hkv hvalues => List.forall_mem_cons.mpr ⟨hkv, hvalues⟩
  case none => exact fun any hany => by cases hany
  case some => exact fun any hany any' heq => Option.some.inj heq ▸ hany
  all_goals
    intros
    exact leaf _ (fun _ h => by cases h) fun _ h => by cases h

/-- Every node of an accepted value is one the model can carry, and of no other. -/
theorem wireAny_accepted_iff (field : String) (any : AnyValue) :
    (∃ value, Decode.wireAny field any = .ok value) ↔
      ∀ node, Within node any → Represents node := by
  induction any using AnyValue.induct with
  | leaf any harray hkvlist =>
    have hself : (∀ node, Within node any → Represents node) ↔ Represents any := by
      refine ⟨fun h => h any .here, fun h node hnode => ?_⟩
      cases hnode with
      | here => exact h
      | item mem below => exact absurd rfl (harray _)
      | entry mem value below => exact absurd rfl (hkvlist _)
    rw [hself]
    cases any with
    | unset =>
      refine ⟨fun h => h.elim fun _ h => ?_, False.elim⟩
      exact absurd h (by simp [Decode.wireAny, Decode.unrepresentable])
    | stringValueStrindex index =>
      refine ⟨fun h => h.elim fun _ h => ?_, False.elim⟩
      exact absurd h (by simp [Decode.wireAny, Decode.unrepresentable])
    | arrayValue values => exact absurd rfl (harray values)
    | kvlistValue values => exact absurd rfl (hkvlist values)
    | _ => exact ⟨fun _ => trivial, fun _ => ⟨_, rfl⟩⟩
  | array values ih =>
    rw [wireAny_array_iff]
    constructor
    · rintro ⟨hitems, hrepresents⟩ node hnode
      cases hnode with
      | here => exact hrepresents
      | item mem below => exact (ih _ mem).mp (hitems _ mem) node below
    · intro h
      exact ⟨fun item hitem => (ih item hitem).mpr fun node below => h node (.item hitem below),
        h _ .here⟩
  | kvlist values ih =>
    rw [wireAny_kvlist_iff]
    constructor
    · rintro ⟨hentries, hrepresents⟩ node hnode
      cases hnode with
      | here => exact hrepresents
      | entry mem value below => exact (ih _ mem _ value).mp (hentries _ mem _ value) node below
    · intro h
      exact ⟨fun kv hkv any hany => (ih kv hkv any hany).mpr fun node below =>
        h node (.entry hkv hany below), h _ .here⟩

/-- **Wire values are decoded exactly.**  A value is accepted exactly when it was sent and each of
its nodes, at every level, is one the model can carry; and then it reads back as it was sent, with
its items and entries in order. -/
theorem wireValue_exact (field : String) (any : Option AnyValue) :
    ((∃ value, Decode.wireValue field any = .ok value) ↔
      ∃ tree, any = some tree ∧ ∀ node, Within node tree → Represents node) ∧
    ∀ value, Decode.wireValue field any = .ok value → any = some (ofValue value) := by
  cases any with
  | none =>
    have hrefused : ∀ value, Decode.wireValue field none ≠ .ok value := fun value => by
      simp [Decode.wireValue, Decode.unrepresentable]
    refine ⟨⟨fun h => h.elim fun value h => absurd h (hrefused value), fun h => ?_⟩,
      fun value h => absurd h (hrefused value)⟩
    obtain ⟨_, hnone, -⟩ := h
    cases hnone
  | some any =>
    refine ⟨?_, fun value h => congrArg some (ofValue_wireAny field any value h).symm⟩
    have haccepted := wireAny_accepted_iff field any
    simpa [Decode.wireValue] using haccepted

/-! ## Trace states -/

/-- A list member read as an entry: cut at its first equals sign, both halves trimmed. -/
def EntryOf (member : List Char) (entry : TraceStateEntry) : Prop :=
  ∃ vendor value, member = vendor ++ '=' :: value ∧ '=' ∉ vendor ∧
    entry.vendor = String.ofList (trim Decode.isWhitespace vendor) ∧
    entry.value = String.ofList (trim Decode.isWhitespace value)

theorem traceStateEntry_eq_ok_iff {member : List Char} {entry : TraceStateEntry} :
    Decode.traceStateEntry member = .ok entry ↔ EntryOf member entry := by
  unfold Decode.traceStateEntry
  constructor
  · intro h
    split at h
    · exact absurd h (by simp [Decode.unrepresentable])
    · rename_i vendor value hsplit
      obtain ⟨hmember, hfirst⟩ := splitOnce_eq_some_iff.mp hsplit
      obtain rfl := Except.ok.inj h
      exact ⟨vendor, value, hmember, hfirst, rfl, rfl⟩
  · rintro ⟨vendor, value, hmember, hfirst, hvendor, hvalue⟩
    rw [splitOnce_eq_some_iff.mpr ⟨hmember, hfirst⟩]
    dsimp only
    rw [← hvendor, ← hvalue]

/-- A member is an entry exactly when it holds an equals sign. -/
theorem exists_traceStateEntry_iff {member : List Char} :
    (∃ entry, Decode.traceStateEntry member = .ok entry) ↔ '=' ∈ member := by
  simp only [traceStateEntry_eq_ok_iff]
  constructor
  · rintro ⟨entry, vendor, value, rfl, -⟩
    exact List.mem_append_right _ List.mem_cons_self
  · intro h
    obtain ⟨vendor, value, hmember, hfirst⟩ := List.eq_append_cons_of_mem h
    exact ⟨⟨_, _⟩, vendor, value, hmember, hfirst, rfl, rfl⟩

/-- **Trace states are read exactly.**  A string is accepted exactly when it is empty, or within
both caps with an equals sign in every member; its members are read as entries, in order; and what
was accepted is accepted again, as the same entries, from its print. -/
theorem traceState_exact (raw : String) :
    ((∃ state, Decode.traceState raw = .ok state) ↔ raw = "" ∨
      (raw.utf8ByteSize ≤ 512 ∧ (raw.toList.splitOn ',').length ≤ 32 ∧
        ∀ member ∈ raw.toList.splitOn ',', '=' ∈ member)) ∧
    ∀ state, Decode.traceState raw = .ok state →
      (raw = "" → state.entries = []) ∧
      (raw ≠ "" → List.Forall₂ EntryOf (raw.toList.splitOn ',') state.entries) ∧
      Decode.traceState (ofTraceState state) = .ok state := by
  have hmembers : (∃ entries, (raw.toList.splitOn ',').mapM Decode.traceStateEntry = .ok entries) ↔
      ∀ member ∈ raw.toList.splitOn ',', '=' ∈ member := by
    rw [exists_mapM_eq_ok_iff]
    exact forall₂_congr fun member _ => exists_traceStateEntry_iff
  constructor
  · rw [← hmembers]
    constructor
    · rintro ⟨state, h⟩
      rcases traceState_eq_ok_iff.mp h with ⟨hempty, -⟩ | ⟨-, hbytes, hcount, hentries⟩
      · exact Or.inl hempty
      · exact Or.inr ⟨hbytes, hcount, _, hentries⟩
    · intro h
      rcases eq_or_ne raw "" with hempty | hne
      · exact ⟨⟨[]⟩, traceState_eq_ok_iff.mpr (Or.inl ⟨hempty, rfl⟩)⟩
      · obtain ⟨hbytes, hcount, entries, hentries⟩ := h.resolve_left hne
        exact ⟨⟨entries⟩, traceState_eq_ok_iff.mpr (Or.inr ⟨hne, hbytes, hcount, hentries⟩)⟩
  · intro state h
    refine ⟨fun hempty => ?_, fun hne => ?_, ?_⟩
    · rcases traceState_eq_ok_iff.mp h with ⟨-, rfl⟩ | ⟨hne, -⟩
      · rfl
      · exact absurd hempty hne
    · rcases traceState_eq_ok_iff.mp h with ⟨hempty, -⟩ | ⟨-, -, -, hentries⟩
      · exact absurd hempty hne
      · exact (mapM_eq_ok_iff.mp hentries).imp fun _ _ => traceStateEntry_eq_ok_iff.mp
    · rw [traceState_recovers.recover_eq h]
      exact traceState_recovers.decode_normal h

end Otlp

end RuntimeTrail
