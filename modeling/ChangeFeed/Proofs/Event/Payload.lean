import ChangeFeed.Event.Basic
import ChangeFeed.Proofs.Record.Decoding
import ChangeFeed.Proofs.Text.Numeral

/-!
# What a payload tells

`Payload.Means` says which values tell a payload: an object by the names of its members, or an array
by position, in which every field stands at most once. `Json.Tells` is what the values of one
optional field tell; an absent field and a null one tell the same. A payload is read from the values
that tell it and from no others (`Payload.ofJson?_eq_some_iff`).
-/

namespace ChangeFeed

/-! ## Fields -/

namespace Json

/-- The values that members have under a key, in their order. -/
def values (members : List (String × Json)) (key : String) : List Json :=
  (members.filter (·.1 = key)).map (·.2)

/-- The value that stands at the position of a field, if the array goes so far. -/
def positional (fields : List String) (items : List Json) (key : String) : List Json :=
  items[fields.idxOf key]?.toList

/-- The values of members behind others stand behind the values of those. -/
theorem values_append (ms ms' : List (String × Json)) (key : String) :
    values (ms ++ ms') key = values ms key ++ values ms' key := by
  unfold values
  rw [List.filter_append, List.map_append]

/-- A member in front that has the key puts its value in front. -/
theorem values_cons_self (key : String) (v : Json) (ms : List (String × Json)) :
    values ((key, v) :: ms) key = v :: values ms key := by
  unfold values
  rw [List.filter_cons_of_pos (by rw [decide_eq_true_eq])]
  rfl

/-- A member in front that has another key adds no value. -/
theorem values_cons_of_ne {key key' : String} (h : key ≠ key') (v : Json)
    (ms : List (String × Json)) : values ((key, v) :: ms) key' = values ms key' := by
  unfold values
  rw [List.filter_cons_of_neg (by simpa using h)]

/-- There is no value under a key just if no member has it. -/
theorem values_eq_nil_iff {ms : List (String × Json)} {key : String} :
    values ms key = [] ↔ ∀ m ∈ ms, m.1 ≠ key := by
  unfold values
  simp only [List.map_eq_nil_iff, List.filter_eq_nil_iff, decide_eq_true_eq, ne_eq]

/-- What the values of an optional field tell: nothing if it is absent or null, and otherwise what
its only value means. -/
inductive Tells {α : Type} (means : Json → α → Prop) : List Json → Option α → Prop
  | absent : Tells means [] none
  | null : Tells means [.null] none
  | value {v a} (hv : v ≠ .null) (h : means v a) : Tells means [v] (some a)

/-- A field stands at most once, with the one value that it has. -/
theorem sole?_eq_some_iff {members : List (String × Json)} {key : String} {v? : Option Json} :
    sole? members key = some v? ↔ values members key = v?.toList := by
  unfold sole? values
  cases members.filter (·.1 = key) with
  | nil => cases v? <;> simp
  | cons m ms =>
    cases ms with
    | nil => cases v? <;> simp
    | cons m' ms => cases v? <;> simp

section

variable {α : Type} {read? : Json → Option α} {means : Json → α → Prop} {v? : Option Json}
  {a? : Option α}

/-- What is read from the value of an optional field is what it tells. -/
theorem nullable?_eq_some_iff (hread : ∀ v a, read? v = some a ↔ means v a) :
    nullable? read? v? = some a? ↔ Tells means v?.toList a? := by
  constructor
  · intro h
    unfold nullable? at h
    split at h
    · cases h
      exact .absent
    · cases h
      exact .null
    · next v hnull =>
      obtain ⟨a, ha, rfl⟩ := Option.map_eq_some_iff.1 h
      exact .value (fun h => hnull h) ((hread v a).1 ha)
  · intro h
    generalize hvs : v?.toList = vs at h
    cases h with
    | absent =>
      rw [Option.toList_eq_nil_iff.1 hvs]
      rfl
    | null =>
      rw [Option.toList_eq_singleton_iff.1 hvs]
      rfl
    | @value v a hnull ha =>
      rw [Option.toList_eq_singleton_iff.1 hvs]
      unfold nullable?
      split
      · next hnone => cases hnone
      · next hv => exact absurd (Option.some.inj hv) hnull
      · next v' _ hv =>
        cases hv
        rw [(hread v a).2 ha]
        rfl

/-- An optional field that tells something has one value at most. -/
theorem Tells.exists_toList {vs : List Json} (h : Tells means vs a?) :
    ∃ v? : Option Json, vs = v?.toList := by
  cases h with
  | absent => exact ⟨none, rfl⟩
  | null => exact ⟨some .null, rfl⟩
  | value => exact ⟨some _, rfl⟩

end

/-- A value is taken for a text just if it is a string of that text. -/
theorem asString?_eq_some_iff (v : Json) (s : String) : asString? v = some s ↔ v = .string s := by
  cases v <;> simp [asString?]

/-- A value is taken for a 64-bit integer just if it is that integer as a whole number. -/
theorem asInt64?_eq_some_iff (v : Json) (n : Int64) : asInt64? v = some n ↔ v = .ofInt64 n := by
  constructor
  · intro h
    unfold asInt64? at h
    split at h
    · next k range =>
      cases Text.toInt64?_eq_some_iff.1 h
      rfl
    · cases h
  · rintro rfl
    exact Text.toInt64?_eq_some_iff.2 rfl

end Json

/-! ## Sources -/

namespace Source

/-- The fields of a source, in their order. -/
def fields : List String :=
  ["connector", "name", "db", "schema", "table"]

/-- What the values of its fields tell about a source. -/
structure IsTold (source : Source) (values : String → List Json) : Prop where
  connector : Json.Tells (fun v s => v = .string s) (values "connector") source.connector
  name : Json.Tells (fun v s => v = .string s) (values "name") source.name
  db : Json.Tells (fun v s => v = .string s) (values "db") source.db
  schema : Json.Tells (fun v s => v = .string s) (values "schema") source.schema
  table : Json.Tells (fun v s => v = .string s) (values "table") source.table

/-- The values that tell a source. -/
inductive Means : Json → Source → Prop
  | object {members source} (h : source.IsTold (Json.values members)) :
      Means (.object members) source
  | array {items source} (hlength : items.length ≤ fields.length)
      (h : source.IsTold (Json.positional fields items)) : Means (.array items) source

variable {source : Source}

/-- A source is read from the values of its fields if these tell it. -/
theorem ofFields?_eq_some_iff {values : String → List Json}
    {connector name db schema table : Option Json}
    (hconnector : values "connector" = connector.toList) (hname : values "name" = name.toList)
    (hdb : values "db" = db.toList) (hschema : values "schema" = schema.toList)
    (htable : values "table" = table.toList) :
    ofFields? connector name db schema table = some source ↔ source.IsTold values := by
  have text : ∀ {v? : Option Json} {s? : Option String},
      Json.nullable? Json.asString? v? = some s? ↔
        Json.Tells (fun v s => v = .string s) v?.toList s? :=
    Json.nullable?_eq_some_iff Json.asString?_eq_some_iff
  simp only [ofFields?, Option.bind_eq_bind, Option.bind_eq_some_iff, text, ← hconnector, ← hname,
    ← hdb, ← hschema, ← htable]
  constructor
  · rintro ⟨_, h1, _, h2, _, h3, _, h4, _, h5, h⟩
    cases h
    exact ⟨h1, h2, h3, h4, h5⟩
  · rintro ⟨h1, h2, h3, h4, h5⟩
    exact ⟨_, h1, _, h2, _, h3, _, h4, _, h5, rfl⟩

/-- A source is read from the values that tell it, and from no others. -/
theorem ofJson?_eq_some_iff (v : Json) (source : Source) :
    ofJson? v = some source ↔ Means v source := by
  constructor
  · intro h
    unfold ofJson? at h
    split at h
    · simp only [Option.bind_eq_bind, Option.bind_eq_some_iff, Json.sole?_eq_some_iff] at h
      obtain ⟨_, h1, _, h2, _, h3, _, h4, _, h5, h⟩ := h
      exact .object ((ofFields?_eq_some_iff h1 h2 h3 h4 h5).1 h)
    · split at h
      · cases h
      · next hlength =>
        exact .array (Nat.le_of_not_lt hlength)
          ((ofFields?_eq_some_iff rfl rfl rfl rfl rfl).1 h)
    · cases h
  · intro h
    cases h with
    | @object members source h =>
      obtain ⟨_, h1⟩ := h.connector.exists_toList
      obtain ⟨_, h2⟩ := h.name.exists_toList
      obtain ⟨_, h3⟩ := h.db.exists_toList
      obtain ⟨_, h4⟩ := h.schema.exists_toList
      obtain ⟨_, h5⟩ := h.table.exists_toList
      simp only [ofJson?, Option.bind_eq_bind, Option.bind_eq_some_iff, Json.sole?_eq_some_iff]
      exact ⟨_, h1, _, h2, _, h3, _, h4, _, h5, (ofFields?_eq_some_iff h1 h2 h3 h4 h5).2 h⟩
    | array hlength h =>
      unfold ofJson?
      dsimp only
      rw [if_neg (show ¬ 5 < _ from Nat.not_lt.2 hlength)]
      exact (ofFields?_eq_some_iff rfl rfl rfl rfl rfl).2 h

end Source

/-! ## Payloads -/

/-- The values that tell an operation: its code, or an object whose one key is the code, with
null. -/
inductive Operation.Means : Json → Operation → Prop
  | code (op : Operation) : Means (.string op.code) op
  | object (op : Operation) : Means (.object [(op.code, .null)]) op

/-- An operation is read from its own code and from no other. -/
theorem Operation.ofCode?_eq_some_iff {code : String} {op : Operation} :
    ofCode? code = some op ↔ code = op.code := by
  constructor
  · intro h
    unfold ofCode? at h
    split at h <;> cases h <;> rfl
  · rintro rfl
    exact ofCode?_code op

/-- An operation is read from the values that tell it, and from no others. -/
theorem Operation.ofJson?_eq_some_iff (v : Json) (op : Operation) :
    ofJson? v = some op ↔ Means v op := by
  constructor
  · intro h
    unfold ofJson? at h
    split at h
    · rw [ofCode?_eq_some_iff.1 h]
      exact .code op
    · rw [ofCode?_eq_some_iff.1 h]
      exact .object op
    · cases h
  · intro h
    cases h with
    | code => exact ofCode?_code op
    | object => exact ofCode?_code op

namespace Payload

/-- The fields of a payload, in their order. -/
def fields : List String :=
  ["before", "after", "source", "op", "ts_ms"]

/-- What the values of its fields tell about a payload. Only the operation has to be there. -/
structure IsTold (payload : Payload) (values : String → List Json) : Prop where
  before : Json.Tells (fun v image => v.canonical = image) (values "before") payload.before
  after : Json.Tells (fun v image => v.canonical = image) (values "after") payload.after
  source : Json.Tells Source.Means (values "source") payload.source
  operation : ∃ v, values "op" = [v] ∧ Operation.Means v payload.operation
  timestamp : Json.Tells (fun v n => v = .ofInt64 n) (values "ts_ms") payload.timestamp

/-- The values that tell a payload. -/
inductive Means : Json → Payload → Prop
  | object {members payload} (h : payload.IsTold (Json.values members)) :
      Means (.object members) payload
  | array {items payload} (hlength : items.length ≤ fields.length)
      (h : payload.IsTold (Json.positional fields items)) : Means (.array items) payload

variable {payload : Payload}

/-- A payload is read from the values of its fields if these tell it. -/
theorem ofFields?_eq_some_iff {values : String → List Json}
    {before after source op timestamp : Option Json}
    (hbefore : values "before" = before.toList) (hafter : values "after" = after.toList)
    (hsource : values "source" = source.toList) (hop : values "op" = op.toList)
    (htimestamp : values "ts_ms" = timestamp.toList) :
    ofFields? before after source op timestamp = some payload ↔ payload.IsTold values := by
  have image : ∀ {v? image? : Option Json},
      Json.nullable? (some ·.canonical) v? = some image? ↔
        Json.Tells (fun v image => v.canonical = image) v?.toList image? :=
    Json.nullable?_eq_some_iff fun _ _ => Option.some_inj
  have origin : ∀ {v? : Option Json} {source? : Option Source},
      Json.nullable? Source.ofJson? v? = some source? ↔
        Json.Tells Source.Means v?.toList source? :=
    Json.nullable?_eq_some_iff Source.ofJson?_eq_some_iff
  have time : ∀ {v? : Option Json} {n? : Option Int64},
      Json.nullable? Json.asInt64? v? = some n? ↔
        Json.Tells (fun v n => v = .ofInt64 n) v?.toList n? :=
    Json.nullable?_eq_some_iff Json.asInt64?_eq_some_iff
  have operation : ∀ operation, op.bind Operation.ofJson? = some operation ↔
      ∃ v, values "op" = [v] ∧ Operation.Means v operation := by
    intro operation
    rw [Option.bind_eq_some_iff, hop]
    simp only [Option.toList_eq_singleton_iff, Operation.ofJson?_eq_some_iff]
  simp only [ofFields?, Option.bind_eq_bind, Option.bind_eq_some_iff, image, origin, time,
    ← hbefore, ← hafter, ← hsource, ← htimestamp]
  simp only [← Option.bind_eq_some_iff, operation]
  constructor
  · rintro ⟨_, h1, _, h2, _, h3, _, h4, _, h5, h⟩
    cases h
    exact ⟨h1, h2, h3, h4, h5⟩
  · rintro ⟨h1, h2, h3, h4, h5⟩
    exact ⟨_, h1, _, h2, _, h3, _, h4, _, h5, rfl⟩

/-- A payload is read from the values that tell it, and from no others. -/
theorem ofJson?_eq_some_iff (v : Json) (payload : Payload) :
    ofJson? v = some payload ↔ Means v payload := by
  constructor
  · intro h
    unfold ofJson? at h
    split at h
    · simp only [Option.bind_eq_bind, Option.bind_eq_some_iff, Json.sole?_eq_some_iff] at h
      obtain ⟨_, h1, _, h2, _, h3, _, h4, _, h5, h⟩ := h
      exact .object ((ofFields?_eq_some_iff h1 h2 h3 h4 h5).1 h)
    · split at h
      · cases h
      · next hlength =>
        exact .array (Nat.le_of_not_lt hlength)
          ((ofFields?_eq_some_iff rfl rfl rfl rfl rfl).1 h)
    · cases h
  · intro h
    cases h with
    | @object members payload h =>
      obtain ⟨_, h1⟩ := h.before.exists_toList
      obtain ⟨_, h2⟩ := h.after.exists_toList
      obtain ⟨_, h3⟩ := h.source.exists_toList
      obtain ⟨op, h4, -⟩ := h.operation
      replace h4 : Json.values members "op" = (some op).toList := h4
      obtain ⟨_, h5⟩ := h.timestamp.exists_toList
      simp only [ofJson?, Option.bind_eq_bind, Option.bind_eq_some_iff, Json.sole?_eq_some_iff]
      exact ⟨_, h1, _, h2, _, h3, _, h4, _, h5, (ofFields?_eq_some_iff h1 h2 h3 h4 h5).2 h⟩
    | array hlength h =>
      unfold ofJson?
      dsimp only
      rw [if_neg (show ¬ 5 < _ from Nat.not_lt.2 hlength)]
      exact (ofFields?_eq_some_iff rfl rfl rfl rfl rfl).2 h

end Payload

/-! ## Events -/

/-- Bytes that are read as an envelope are those of the event of its payload. -/
theorem ChangeEvent.ofBytes_of_parse {bytes : List UInt8} {envelope : Envelope}
    (h : Envelope.parse bytes = .ok envelope) (topic : String) :
    ofBytes topic (some bytes) = .ok (ofPayload topic envelope.payload) := by
  cases bytes with
  | nil => cases h
  | cons byte rest =>
    unfold ofBytes
    dsimp only
    rw [h]

end ChangeFeed
