import ChangeFeed.Proofs.Event.Payload
import ChangeFeed.Proofs.Record.Decoding
import Mathlib.Logic.Relation

/-!
# Columns

`Kind.columns` lists the columns that a kind declares, in their order. A row is read when each of
them is (`Column.IsRead`), and what is wrong with a row is what is wrong with the first column that
is not (`FirstFault`). The readers of all kinds follow their columns (`Kind.follows_ofImage`): each
is a chain of readers of one column, and such a chain fails where its first failing reader does
(`Follows.bind`).

A row is read through its declared columns alone, where null is as good as absent
(`Kind.ofImage_congr`). So members that no column declares, the order of the members and members
that are null make no difference (`Image.value?_of_edit`).
-/

namespace ChangeFeed

/-- What a column is declared to hold. -/
inductive ColumnType where
  | integer
  | decimal
  | timestamp
  | text
deriving DecidableEq

/-- Takes a value as one of the type. -/
def ColumnType.accept : ColumnType → Json → Except Expected Unit
  | .integer, v => (Coercion.integer v).map fun _ => ()
  | .decimal, v => (Coercion.decimal v).map fun _ => ()
  | .timestamp, v => (Coercion.timestamp v).map fun _ => ()
  | .text, _ => .ok ()

/-- A declared column. -/
structure Column where
  name : String
  type : ColumnType
  required : Bool
deriving DecidableEq

/-- The columns of a kind, in the order of their declaration. -/
def Kind.columns : Kind → List Column
  | .customer =>
    [⟨"id", .integer, true⟩, ⟨"name", .text, false⟩, ⟨"email", .text, false⟩,
      ⟨"city", .text, false⟩]
  | .product =>
    [⟨"id", .integer, true⟩, ⟨"name", .text, false⟩, ⟨"price", .decimal, false⟩,
      ⟨"stock", .integer, false⟩]
  | .order =>
    [⟨"id", .integer, true⟩, ⟨"customer_id", .integer, true⟩, ⟨"status", .text, false⟩,
      ⟨"total", .decimal, false⟩, ⟨"order_date", .timestamp, false⟩]
  | .orderItem =>
    [⟨"id", .integer, true⟩, ⟨"order_id", .integer, true⟩, ⟨"product_id", .integer, false⟩,
      ⟨"quantity", .integer, false⟩, ⟨"unit_price", .decimal, false⟩]

/-! ## One column -/

/-- A member is there and not null. -/
def Image.Has (image : Image) (name : String) (v : Json) : Prop :=
  Json.lookup? image.members name = some v ∧ v ≠ .null

namespace Column

/-- A column that can be read: an optional one that is absent or null, or one whose value is of its
type. -/
inductive IsRead (image : Image) (column : Column) : Prop
  | absent (h : ∀ v, ¬image.Has column.name v) (optional : column.required = false)
  | value {v} (h : image.Has column.name v) (accepted : column.type.accept v = .ok ())

/-- What is wrong with a column that cannot be read. -/
inductive Fails (image : Image) (column : Column) : DecodeError → Prop
  | missing (h : ∀ v, ¬image.Has column.name v) (required : column.required = true) :
      Fails image column (.missingField column.name)
  | invalid {v expected} (h : image.Has column.name v)
      (refused : column.type.accept v = .error expected) :
      Fails image column (.invalidField column.name expected v.canonicalText)

end Column

/-- What is wrong with the first of the columns that cannot be read. -/
inductive FirstFault (image : Image) : List Column → DecodeError → Prop
  | here {column rest e} (h : column.Fails image e) : FirstFault image (column :: rest) e
  | later {column rest e} (h : column.IsRead image) (h' : FirstFault image rest e) :
      FirstFault image (column :: rest) e

variable {image : Image} {name : String}

/-- A member has no value just if it is absent or null. -/
theorem Image.value?_eq_none_iff : image.value? name = none ↔ ∀ v, ¬image.Has name v := by
  rw [Option.eq_none_iff_forall_ne_some]
  exact forall_congr' fun v => not_congr value?_eq_some_iff

namespace Column

variable {column : Column} {e : DecodeError}

/-- What is wrong with a column, by the value of its field. -/
theorem fails_iff :
    column.Fails image e ↔
      (image.value? column.name = none ∧ column.required = true ∧ e = .missingField column.name) ∨
      ∃ v expected, image.value? column.name = some v ∧ column.type.accept v = .error expected ∧
        e = .invalidField column.name expected v.canonicalText := by
  constructor
  · rintro (⟨habsent, hrequired⟩ | ⟨hvalue, hrefused⟩)
    · exact .inl ⟨Image.value?_eq_none_iff.2 habsent, hrequired, rfl⟩
    · exact .inr ⟨_, _, Image.value?_eq_some_iff.2 hvalue, hrefused, rfl⟩
  · rintro (⟨habsent, hrequired, rfl⟩ | ⟨v, expected, hvalue, hrefused, rfl⟩)
    · exact .missing (Image.value?_eq_none_iff.1 habsent) hrequired
    · exact .invalid (Image.value?_eq_some_iff.1 hvalue) hrefused

/-- A column can be read exactly if nothing is wrong with it. -/
theorem isRead_iff : column.IsRead image ↔ ∀ e, ¬column.Fails image e := by
  constructor
  · intro h e hfails
    rcases fails_iff.1 hfails with ⟨habsent, hrequired, -⟩ | ⟨v, expected, hvalue, hrefused, -⟩
    · rcases h with ⟨-, hoptional⟩ | ⟨hvalue, -⟩
      · rw [hoptional] at hrequired
        cases hrequired
      · exact Image.value?_eq_none_iff.1 habsent _ hvalue
    · rcases h with ⟨habsent, -⟩ | ⟨hvalue', haccepted⟩
      · exact habsent v (Image.value?_eq_some_iff.1 hvalue)
      · rw [Image.value?_eq_some_iff.2 hvalue'] at hvalue
        cases hvalue
        rw [haccepted] at hrefused
        cases hrefused
  · intro h
    cases hv : image.value? column.name with
    | none =>
      have habsent := Image.value?_eq_none_iff.1 hv
      exact .absent habsent (Bool.eq_false_iff.2 fun hrequired => h _ (.missing habsent hrequired))
    | some v =>
      have hvalue := Image.value?_eq_some_iff.1 hv
      cases haccept : column.type.accept v with
      | ok => exact .value hvalue haccept
      | error expected => exact absurd (.invalid hvalue haccept) (h _)

end Column

section

variable {α : Type} {coercion : Json → Except Expected α} {type : ColumnType} {e : DecodeError}

/-- A value is refused for what its column expects. -/
theorem Image.coerce_eq_error_iff {v : Json} :
    coerce coercion name v = .error e ↔
      ∃ expected, coercion v = .error expected ∧
        e = .invalidField name expected v.canonicalText := by
  unfold coerce
  cases coercion v <;> simp [Except.mapError, eq_comm]

/-- What a coercion refuses is not of its type. -/
theorem ColumnType.accept_eq_error_iff (htype : type.accept = fun v => (coercion v).map fun _ => ())
    {v : Json} {expected : Expected} :
    type.accept v = .error expected ↔ coercion v = .error expected := by
  rw [show type.accept v = (coercion v).map fun _ => () from congrFun htype v]
  cases coercion v <;> simp [Except.map]

/-- A field that has to be there fails as a required column does. -/
theorem Image.required_eq_error_iff (htype : type.accept = fun v => (coercion v).map fun _ => ()) :
    image.required coercion name = .error e ↔ Column.Fails image ⟨name, type, true⟩ e := by
  unfold required
  rw [Column.fails_iff]
  cases image.value? name with
  | none => simp [eq_comm]
  | some v => simp [coerce_eq_error_iff, ColumnType.accept_eq_error_iff htype]

/-- A field that may be absent fails as an optional column does. -/
theorem Image.optional_eq_error_iff (htype : type.accept = fun v => (coercion v).map fun _ => ()) :
    image.optional coercion name = .error e ↔ Column.Fails image ⟨name, type, false⟩ e := by
  have hmap : ∀ {result : Except DecodeError α},
      result.map some = .error e ↔ result = .error e := by
    intro result
    cases result <;> simp [Except.map]
  unfold optional
  rw [Column.fails_iff]
  cases image.value? name with
  | none => simp
  | some v => simp [hmap, coerce_eq_error_iff, ColumnType.accept_eq_error_iff htype]

end

/-! ## Columns in a row -/

/-- A result that follows columns: it is an error where one of them cannot be read, the one that
says what is wrong with the first such column. -/
def Follows {α : Type} (image : Image) (columns : List Column) (result : Except DecodeError α) :
    Prop :=
  ∀ e, result = .error e ↔ FirstFault image columns e

namespace Follows

variable {α β : Type} {column : Column} {columns : List Column}

/-- Without columns nothing is left to be read. -/
theorem ok (a : α) : Follows image [] (.ok a) := by
  intro e
  constructor <;> rintro ⟨⟩

/-- The reader of a column in front of others that follow theirs. -/
theorem bind {first : Except DecodeError α} {next : α → Except DecodeError β}
    (hfirst : ∀ e, first = .error e ↔ column.Fails image e)
    (hnext : ∀ a, Follows image columns (next a)) :
    Follows image (column :: columns) (first >>= next) := by
  intro e
  cases hresult : first with
  | error e' =>
    have hfails := (hfirst e').1 hresult
    constructor
    · rintro ⟨⟩
      exact .here hfails
    · rintro (h | ⟨hread, -⟩)
      · cases hresult.symm.trans ((hfirst e).2 h)
        rfl
      · exact absurd hfails (Column.isRead_iff.1 hread e')
  | ok a =>
    have hread : column.IsRead image := Column.isRead_iff.2 fun e' hfails => by
      have := (hfirst e').2 hfails
      rw [hresult] at this
      cases this
    constructor
    · intro h
      exact .later hread ((hnext a e).1 h)
    · rintro (h | ⟨-, h⟩)
      · exact absurd h (Column.isRead_iff.1 hread e)
      · exact (hnext a e).2 h

/-- What is made of the result does not matter to the columns. -/
theorem map {result : Except DecodeError α} (h : Follows image columns result) (f : α → β) :
    Follows image columns (result.map f) := by
  intro e
  rw [← h e]
  cases result <;> simp [Except.map]

end Follows

/-- No column of a row that can be read is at fault, and one of any other is. -/
theorem forall_isRead_iff {columns : List Column} :
    (∀ column ∈ columns, column.IsRead image) ↔ ∀ e, ¬FirstFault image columns e := by
  induction columns with
  | nil => exact ⟨fun _ _ h => (nomatch h), fun _ _ h => (nomatch h)⟩
  | cons column rest ih =>
    rw [List.forall_mem_cons, ih, Column.isRead_iff]
    constructor
    · rintro ⟨hfirst, hrest⟩ e (h | ⟨-, h⟩)
      · exact hfirst e h
      · exact hrest e h
    · intro h
      have hfirst : ∀ e, ¬column.Fails image e := fun e hfails => h e (.here hfails)
      exact ⟨hfirst, fun e hfault => h e (.later (Column.isRead_iff.2 hfirst) hfault)⟩

/-- Every kind follows its columns. -/
theorem Kind.follows_ofImage (kind : Kind) (image : Image) :
    Follows image kind.columns (kind.ofImage image) := by
  have requiredInteger : ∀ {name : String} (e : DecodeError),
      image.requiredInteger name = .error e ↔ Column.Fails image ⟨name, .integer, true⟩ e :=
    fun _ => Image.required_eq_error_iff rfl
  have integer : ∀ {name : String} (e : DecodeError),
      image.integer name = .error e ↔ Column.Fails image ⟨name, .integer, false⟩ e :=
    fun _ => Image.optional_eq_error_iff rfl
  have decimal : ∀ {name : String} (e : DecodeError),
      image.decimal name = .error e ↔ Column.Fails image ⟨name, .decimal, false⟩ e :=
    fun _ => Image.optional_eq_error_iff rfl
  have timestamp : ∀ {name : String} (e : DecodeError),
      image.timestamp name = .error e ↔ Column.Fails image ⟨name, .timestamp, false⟩ e :=
    fun _ => Image.optional_eq_error_iff rfl
  have text : ∀ {name : String} (e : DecodeError),
      image.text name = .error e ↔ Column.Fails image ⟨name, .text, false⟩ e :=
    fun _ => Image.optional_eq_error_iff rfl
  cases kind with
  | customer =>
    exact .map (.bind requiredInteger fun _ => .bind text fun _ => .bind text fun _ =>
      .bind text fun _ => .ok _) _
  | product =>
    exact .map (.bind requiredInteger fun _ => .bind text fun _ => .bind decimal fun _ =>
      .bind integer fun _ => .ok _) _
  | order =>
    exact .map (.bind requiredInteger fun _ => .bind requiredInteger fun _ => .bind text fun _ =>
      .bind decimal fun _ => .bind timestamp fun _ => .ok _) _
  | orderItem =>
    exact .map (.bind requiredInteger fun _ => .bind requiredInteger fun _ => .bind integer fun _ =>
      .bind integer fun _ => .bind decimal fun _ => .ok _) _

/-! ## Members that make no difference -/

/-- A change to the members of an object that has nothing to do with the known keys: a member that
is not known comes in, one that is null does where there was none, or members of which no two have
the same key change places. -/
inductive Json.Edit (known : List String) : List (String × Json) → List (String × Json) → Prop
  | unknown {before after key v} (h : key ∉ known) :
      Edit known (before ++ after) (before ++ (key, v) :: after)
  | null {before after key} (absent : ∀ m ∈ before ++ after, m.1 ≠ key) :
      Edit known (before ++ after) (before ++ (key, .null) :: after)
  | order {ms ms'} (h : ms.Perm ms') (unique : (ms.map (·.1)).Nodup) : Edit known ms ms'

/-- The member that is found under a key is the last one with it. -/
theorem Json.lookup?_eq_getLast? (members : List (String × Json)) (key : String) :
    lookup? members key = (values members key).getLast? := by
  unfold lookup? values
  rw [List.getLast?_eq_head?_reverse, ← List.map_reverse, ← List.filter_reverse, List.head?_map,
    List.head?_filter]

/-- Of members with different keys there is one for each key at most. -/
theorem Json.length_values_le {members : List (String × Json)}
    (unique : (members.map (·.1)).Nodup) (key : String) : (values members key).length ≤ 1 := by
  have hkeys : (members.map (·.1)).filter (· = key) = (members.filter (·.1 = key)).map (·.1) := by
    rw [List.filter_map]
    rfl
  have hlength := congrArg List.length hkeys
  rw [List.length_map] at hlength
  unfold values
  rw [List.length_map, ← hlength, ← List.countP_eq_length_filter]
  exact List.nodup_iff_count_le_one.1 unique key

/-- An edit leaves the values of known fields alone. -/
theorem Image.value?_of_edit {known : List String} {ms ms' : List (String × Json)}
    (h : Json.Edit known ms ms') {key : String} (hkey : key ∈ known) :
    value? ⟨ms⟩ key = value? ⟨ms'⟩ key := by
  have same : Json.values ms key = Json.values ms' key →
      value? ⟨ms⟩ key = value? ⟨ms'⟩ key := by
    intro hvalues
    unfold value?
    dsimp only
    rw [Json.lookup?_eq_getLast?, Json.lookup?_eq_getLast?, hvalues]
  cases h with
  | @unknown before after key' v hunknown =>
    have hne : key' ≠ key := by
      rintro rfl
      exact hunknown hkey
    apply same
    rw [Json.values_append, Json.values_append, Json.values_cons_of_ne hne]
  | @null before after key' absent =>
    by_cases hne : key' = key
    · subst hne
      have hnone := Json.values_eq_nil_iff.2 absent
      have hnull : Json.values (before ++ (key', .null) :: after) key' = [.null] := by
        rw [Json.values_append] at hnone
        obtain ⟨hbefore, hafter⟩ := List.append_eq_nil_iff.1 hnone
        rw [Json.values_append, Json.values_cons_self, hbefore, hafter]
        rfl
      unfold value?
      dsimp only
      rw [Json.lookup?_eq_getLast?, Json.lookup?_eq_getLast?, hnone, hnull]
      rfl
    · apply same
      rw [Json.values_append, Json.values_append, Json.values_cons_of_ne hne]
  | order hperm unique =>
    apply same
    have hvalues : (Json.values ms key).Perm (Json.values ms' key) := (hperm.filter _).map _
    have hlength := Json.length_values_le unique key
    cases hms : Json.values ms key with
    | nil =>
      rw [hms] at hvalues
      exact (List.nil_perm.1 hvalues).symm
    | cons v rest =>
      rw [hms, List.length_cons] at hlength
      have hrest : rest = [] := List.eq_nil_of_length_eq_zero (by omega)
      rw [hms, hrest] at hvalues
      rw [hrest]
      exact List.singleton_perm.1 hvalues

/-- A row is read through its columns only. -/
theorem Kind.ofImage_congr {kind : Kind} {image image' : Image}
    (h : ∀ column ∈ kind.columns, image.value? column.name = image'.value? column.name) :
    kind.ofImage image = kind.ofImage image' := by
  cases kind with
  | customer =>
    simp only [columns, List.forall_mem_cons] at h
    obtain ⟨h1, h2, h3, h4, -⟩ := h
    simp only [ofImage, Customer.ofImage, Image.requiredInteger, Image.required, Image.text,
      Image.optional, h1, h2, h3, h4]
  | product =>
    simp only [columns, List.forall_mem_cons] at h
    obtain ⟨h1, h2, h3, h4, -⟩ := h
    simp only [ofImage, Product.ofImage, Image.requiredInteger, Image.required, Image.text,
      Image.decimal, Image.integer, Image.optional, h1, h2, h3, h4]
  | order =>
    simp only [columns, List.forall_mem_cons] at h
    obtain ⟨h1, h2, h3, h4, h5, -⟩ := h
    simp only [ofImage, Order.ofImage, Image.requiredInteger, Image.required, Image.text,
      Image.decimal, Image.timestamp, Image.optional, h1, h2, h3, h4, h5]
  | orderItem =>
    simp only [columns, List.forall_mem_cons] at h
    obtain ⟨h1, h2, h3, h4, h5, -⟩ := h
    simp only [ofImage, OrderItem.ofImage, Image.requiredInteger, Image.required,
      Image.decimal, Image.integer, Image.optional, h1, h2, h3, h4, h5]

namespace Kind

/-- An object whose members were edited apart from the columns of a kind is decoded as before. -/
theorem decode_of_edit {kind : Kind} {ms ms' : List (String × Json)}
    (h : Json.Edit (kind.columns.map (·.name)) ms ms') :
    kind.decode (.object ms) = kind.decode (.object ms') :=
  ofImage_congr fun _ hcolumn => Image.value?_of_edit h (List.mem_map_of_mem hcolumn)

/-- What a kind makes of a value is settled by its columns. A record is decoded exactly from an
object in which each of them can be read. Any other object is refused for the first column, in the
order of declaration, that cannot: it is required and absent or null, or its value is not of its
type. A value that is no object is refused as such. And an object that comes from another by any
number of edits, made or undone, that leave the columns alone is decoded to the same result. -/
theorem decode_by_columns (kind : Kind) :
    (∀ v, (∃ record, kind.decode v = .ok record) ↔
      ∃ ms, v = .object ms ∧ ∀ column ∈ kind.columns, column.IsRead ⟨ms⟩) ∧
    (∀ v e, kind.decode v = .error e ↔
      (∃ ms, v = .object ms ∧ FirstFault ⟨ms⟩ kind.columns e) ∨
        (∀ ms, v ≠ .object ms) ∧ e = .notAnObject v.typeName) ∧
    ∀ ms ms', Relation.EqvGen (Json.Edit (kind.columns.map (·.name))) ms ms' →
      kind.decode (.object ms) = kind.decode (.object ms') := by
  have follows : ∀ ms e, kind.decode (.object ms) = .error e ↔ FirstFault ⟨ms⟩ kind.columns e :=
    fun ms => kind.follows_ofImage ⟨ms⟩
  have refuses : ∀ v, (∀ ms, v ≠ .object ms) →
      kind.decode v = .error (.notAnObject v.typeName) := by
    intro v hv
    cases v with
    | object ms => exact absurd rfl (hv ms)
    | _ => rfl
  refine ⟨fun v => ?_, fun v e => ?_, fun ms ms' h => ?_⟩
  · by_cases hv : ∃ ms, v = .object ms
    · obtain ⟨ms, rfl⟩ := hv
      have hread : (∃ record, kind.decode (.object ms) = .ok record) ↔
          ∀ column ∈ kind.columns, column.IsRead ⟨ms⟩ := by
        rw [forall_isRead_iff]
        simp only [← follows ms]
        cases kind.decode (.object ms) <;> simp
      rw [hread]
      simp
    · have hnone : ∀ ms, v ≠ .object ms := fun ms h => hv ⟨ms, h⟩
      rw [refuses v hnone]
      simp [hnone]
  · by_cases hv : ∃ ms, v = .object ms
    · obtain ⟨ms, rfl⟩ := hv
      rw [follows ms]
      simp
    · have hnone : ∀ ms, v ≠ .object ms := fun ms h => hv ⟨ms, h⟩
      rw [refuses v hnone]
      simp [hnone, eq_comm]
  · induction h with
    | rel _ _ h => exact decode_of_edit h
    | refl => rfl
    | symm _ _ _ ih => exact ih.symm
    | trans _ _ _ _ _ ih ih' => exact ih.trans ih'

/-- An order without a customer, and with a total that is no number, is refused for the customer.
The null that stands for it may as well be left out, a column of another table may be added, and the
order of the members changed. -/
theorem decode_by_columns_order :
    let ms : List (String × Json) :=
      [("id", .ofInt64 10), ("customer_id", .null), ("total", .string "cheap")]
    let ms' : List (String × Json) :=
      [("total", .string "cheap"), ("price", .string "12"), ("id", .ofInt64 10)]
    FirstFault ⟨ms⟩ order.columns (.missingField "customer_id") ∧
      Relation.EqvGen (Json.Edit (order.columns.map (·.name))) ms ms' ∧
      order.decode (.object ms') = .error (.missingField "customer_id") := by
  intro ms ms'
  obtain ⟨-, hfault, hedits⟩ := decode_by_columns order
  have hrefused : order.decode (.object ms) = .error (.missingField "customer_id") := by
    decide +kernel +zetaReduce
  have hfirst : FirstFault ⟨ms⟩ order.columns (.missingField "customer_id") := by
    rcases (hfault _ _).1 hrefused with ⟨_, ⟨⟩, h⟩ | ⟨h, -⟩
    · exact h
    · exact absurd rfl (h ms)
  have hsame : Relation.EqvGen (Json.Edit (order.columns.map (·.name))) ms ms' := by
    let id := ("id", Json.ofInt64 10)
    let total := ("total", Json.string "cheap")
    let price := ("price", Json.string "12")
    have hnull : Json.Edit (order.columns.map (·.name)) [id, total] ms :=
      @Json.Edit.null _ [id] [total] "customer_id" (by decide +kernel +zetaReduce)
    have hunknown : Json.Edit (order.columns.map (·.name)) [id, total] [id, price, total] :=
      @Json.Edit.unknown _ [id] [total] "price" _ (by decide)
    have horder : Json.Edit (order.columns.map (·.name)) [id, price, total] ms' :=
      .order (List.reverse_perm [total, price, id]) (by decide +kernel +zetaReduce)
    exact .trans _ _ _ (.symm _ _ (.rel _ _ hnull)) (.trans _ _ _ (.rel _ _ hunknown)
      (.rel _ _ horder))
  refine ⟨hfirst, hsame, ?_⟩
  rw [← hedits ms ms' hsame]
  exact hrefused

end Kind

end ChangeFeed
