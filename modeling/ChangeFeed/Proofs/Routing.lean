import Mathlib
import ChangeFeed.Proofs.Event.Payload
import ChangeFeed.Proofs.Text.Segment
import ChangeFeed.Router

/-!
# Which kind a source is routed to

A source names one table: what stands behind the last dot, without the blanks around the source
and in lower case (`namesTable_iff`). Adding an alias changes where the sources of the alias's own
table go, and no others (`Router.route?_withAlias`). So the latest alias for the table decides, and
without one the names of the kinds do (`Router.route?_eq_some_iff`).

What does not change the table does not change the route (`Router.route?_congr`): the case of
letters, blanks around the source and, unless it begins with a blank, a qualifier in front. So an
envelope that names a table is routed as the table alone, with or without a schema or a database.
-/

namespace ChangeFeed

open Text

/-! ## Tables -/

/-- The tables that sources name. Blanks around a source do not count, nor does what stands before
its last dot, nor the case of ASCII letters. -/
inductive NamesTable : (source table : String) → Prop
  | bare {before name after} (hbefore : IsBlanks before) (hafter : IsBlanks after)
      (htrimmed : IsTrimmed name) (hname : '.' ∉ name) :
      NamesTable (.ofList (before ++ (name ++ after))) (.ofList (lowerAscii name))
  | qualified {before qualifier name after} (hbefore : IsBlanks before) (hafter : IsBlanks after)
      (htrimmed : IsTrimmed (qualifier ++ '.' :: name)) (hname : '.' ∉ name) :
      NamesTable (.ofList (before ++ ((qualifier ++ '.' :: name) ++ after)))
        (.ofList (lowerAscii name))

variable {source table : String}

/-- Every source names one table. -/
theorem namesTable_iff : NamesTable source table ↔ tableOf source = table := by
  constructor
  · intro h
    unfold tableOf
    cases h with
    | bare hbefore hafter htrimmed hname =>
      rw [String.toList_ofList, trim_append hbefore htrimmed hafter, lastSegment_of_notMem hname]
    | qualified hbefore hafter htrimmed hname =>
      rw [String.toList_ofList, trim_append hbefore htrimmed hafter, lastSegment_append,
        lastSegment_of_notMem hname]
  · rintro rfl
    obtain ⟨before, after, hbefore, hafter, htrimmed, hsource⟩ :=
      exists_eq_append_trim source.toList
    obtain ⟨hname, hparts⟩ := lastSegment_eq_iff.1 (rfl : lastSegment '.' (trim source.toList) = _)
    rw [← String.ofList_toList (s := source)]
    unfold tableOf
    rw [String.toList_ofList]
    generalize lastSegment '.' (trim source.toList) = name at hname hparts
    rw [hsource]
    rcases hparts with hall | ⟨qualifier, hall⟩
    · rw [hall] at htrimmed ⊢
      exact .bare hbefore hafter htrimmed hname
    · rw [hall] at htrimmed ⊢
      exact .qualified hbefore hafter htrimmed hname

/-- Blanks around a source do not change its table. -/
theorem tableOf_append_blanks {before after : List Char} (hbefore : IsBlanks before)
    (hafter : IsBlanks after) (source : String) :
    tableOf (.ofList before ++ source ++ .ofList after) = tableOf source := by
  unfold tableOf
  rw [String.toList_append, String.toList_append, String.toList_ofList, String.toList_ofList,
    List.append_assoc, trim_append_blanks hbefore hafter]

/-- A source in which only the case of ASCII letters differs names the same table. -/
theorem tableOf_of_recased {source' : String}
    (h : List.Forall₂ IsRecased source.toList source'.toList) :
    tableOf source = tableOf source' := by
  have hlower : ∀ {cs ds : List Char}, List.Forall₂ IsRecased cs ds →
      lowerAscii cs = lowerAscii ds := by
    intro cs ds h
    induction h with
    | nil => rfl
    | cons hcase _ ih => exact congrArg₂ List.cons hcase.toLower_eq ih
  unfold tableOf
  rw [lowerAscii_lastSegment, lowerAscii_trim, lowerAscii_lastSegment, lowerAscii_trim, hlower h]

/-- A qualifier in front of a source that does not begin with a blank does not change its table. -/
theorem tableOf_qualified (hsource : ∀ c ∈ source.toList.head?, isBlank c = false)
    (qualifier : String) : tableOf (qualifier ++ "." ++ source) = tableOf source := by
  have hchars : (qualifier ++ "." ++ source).toList = qualifier.toList ++ '.' :: source.toList := by
    rw [String.toList_append, String.toList_append, List.append_assoc]
    rfl
  have htrim : trim source.toList = trimRight source.toList :=
    congrArg trimRight (trimLeft_of_head hsource)
  unfold tableOf
  rw [hchars, trim_append_cons (by decide), lastSegment_append, htrim]

/-! ## Kinds -/

/-- No table is among the names of two kinds. -/
theorem Kind.ofTable?_eq_some_iff {kind : Kind} :
    Kind.ofTable? table = some kind ↔ table ∈ kind.tableNames := by
  constructor
  · intro h
    have hname := List.find?_some h
    exact of_decide_eq_true hname
  · intro h
    cases kind <;> simp only [tableNames, List.mem_cons, List.not_mem_nil, or_false] at h
    · rcases h with rfl | rfl <;> decide
    · rcases h with rfl | rfl <;> decide
    · rcases h with rfl | rfl <;> decide
    · rcases h with rfl | rfl | rfl | rfl <;> decide

namespace Router

/-- Without aliases the names of the kinds decide where a source goes. -/
theorem route?_builtIn (source : String) :
    builtIn.route? source = Kind.ofTable? (tableOf source) :=
  rfl

/-- An alias sends the sources of its table to its kind, and leaves all others alone. -/
theorem route?_withAlias (router : Router) (name : String) (kind : Kind) (source : String) :
    (router.withAlias name kind).route? source =
      if tableOf name = tableOf source then some kind else router.route? source := by
  unfold route? withAlias
  dsimp only
  rw [List.lookup_cons]
  by_cases h : tableOf name = tableOf source
  · rw [if_pos h, h, beq_self_eq_true]
  · have hbeq : (tableOf source == tableOf name) = false := beq_false_of_ne (Ne.symm h)
    rw [if_neg h, hbeq]

/-- The last alias for the table of a source decides where it goes, and without one the names of
the kinds do. -/
theorem route?_withAliases (aliases : List (String × Kind)) (source : String) :
    (builtIn.withAliases aliases).route? source =
      ((aliases.reverse.find? fun a => tableOf a.1 = tableOf source).map (·.2)).or
        (Kind.ofTable? (tableOf source)) := by
  induction aliases using List.reverseRecOn with
  | nil =>
    rw [List.reverse_nil, List.find?_nil, Option.map_none, Option.none_or]
    exact route?_builtIn source
  | append_singleton aliases last ih =>
    have hadd : builtIn.withAliases (aliases ++ [last]) =
        (builtIn.withAliases aliases).withAlias last.1 last.2 := by
      unfold withAliases
      rw [List.foldl_append]
      rfl
    rw [hadd, route?_withAlias, ih, List.reverse_append, List.reverse_singleton,
      List.singleton_append, List.find?_cons]
    by_cases h : tableOf last.1 = tableOf source
    · rw [if_pos h, decide_eq_true h, Option.map_some, Option.some_or]
    · rw [if_neg h, decide_eq_false h]

/-- The kind that the last alias for a table is for. -/
inductive IsLastAlias (aliases : List (String × Kind)) (table : String) (kind : Kind) : Prop
  | intro {earlier name later} (hparts : aliases = earlier ++ (name, kind) :: later)
      (hname : NamesTable name table) (hlater : ∀ a ∈ later, ¬NamesTable a.1 table)

/-- The last alias for a table is found from the end. -/
theorem isLastAlias_iff {aliases : List (String × Kind)} {kind : Kind} :
    IsLastAlias aliases table kind ↔
      ∃ name, aliases.reverse.find? (fun a => tableOf a.1 = table) = some (name, kind) := by
  constructor
  · rintro ⟨rfl, hname, hlater⟩
    next earlier name later =>
    refine ⟨name, List.find?_eq_some_iff_append.2
      ⟨decide_eq_true (namesTable_iff.1 hname), later.reverse, earlier.reverse, ?_, ?_⟩⟩
    · rw [List.reverse_append, List.reverse_cons, List.append_assoc, List.singleton_append]
    · intro a ha
      have := hlater a (List.mem_reverse.1 ha)
      rw [namesTable_iff] at this
      rw [decide_eq_false this]
      rfl
  · rintro ⟨name, h⟩
    obtain ⟨hname, later, earlier, hreverse, hlater⟩ := List.find?_eq_some_iff_append.1 h
    have hparts : aliases = earlier.reverse ++ (name, kind) :: later.reverse := by
      rw [← List.reverse_reverse aliases, hreverse, List.reverse_append, List.reverse_cons,
        List.append_assoc, List.singleton_append]
    refine ⟨hparts, namesTable_iff.2 (of_decide_eq_true hname), fun a ha => ?_⟩
    have := hlater a (List.mem_reverse.1 ha)
    rw [namesTable_iff]
    simpa using this

/-- Sources that name the same table are routed alike. -/
theorem route?_congr (router : Router) {source source' : String}
    (h : tableOf source = tableOf source') : router.route? source = router.route? source' := by
  unfold route?
  rw [h]

/-- A source is routed by the last alias for its table, and without one by the names of the
kinds. -/
theorem route?_eq_some_iff (aliases : List (String × Kind)) {kind : Kind}
    (h : NamesTable source table) :
    (builtIn.withAliases aliases).route? source = some kind ↔
      IsLastAlias aliases table kind ∨
        (∀ a ∈ aliases, ¬NamesTable a.1 table) ∧ table ∈ kind.tableNames := by
  obtain rfl := namesTable_iff.1 h
  rw [route?_withAliases, isLastAlias_iff, Option.or_eq_some_iff, Kind.ofTable?_eq_some_iff]
  refine or_congr ?_ (and_congr_left fun _ => ?_)
  · simp [Option.map_eq_some_iff]
  · simp [Option.map_eq_none_iff, List.find?_eq_none, namesTable_iff]

end Router

/-- An event is on the table that its envelope names, behind the schema or else the database. -/
theorem ChangeEvent.table_ofPayload (topic : String) {payload : Payload} {origin : Source}
    (hsource : payload.source = some origin) (htable : origin.table = some table) :
    (ofPayload topic payload).table =
      match origin.schema.or origin.db with
      | some qualifier => qualifier ++ "." ++ table
      | none => table := by
  unfold ofPayload Source.qualifiedTable?
  dsimp only
  rw [hsource, Option.bind_some, htable]
  rfl

namespace Router

/-- Where a router sends a source follows from the one table that the source names: to the kind of
the last alias for that table, and without an alias for it to the kind that has the table among its
names. So neither the case of ASCII letters matters, nor blanks around the source, nor a qualifier
in front of a source that does not begin with a blank. The event of an envelope that names such a
table is routed as the table alone, whatever the topic. -/
theorem routes_by_table (aliases : List (String × Kind)) :
    let router := builtIn.withAliases aliases
    (∀ source, ∃ table, NamesTable source table ∧
      (∀ other, NamesTable source other → other = table) ∧
      ∀ kind, router.route? source = some kind ↔
        IsLastAlias aliases table kind ∨
          (∀ a ∈ aliases, ¬NamesTable a.1 table) ∧ table ∈ kind.tableNames) ∧
    (∀ source source' : String, List.Forall₂ IsRecased source.toList source'.toList →
      router.route? source' = router.route? source) ∧
    (∀ source before after, IsBlanks before → IsBlanks after →
      router.route? (.ofList before ++ source ++ .ofList after) = router.route? source) ∧
    ∀ table : String, (∀ c ∈ table.toList.head?, isBlank c = false) →
      (∀ qualifier : String, router.route? (qualifier ++ "." ++ table) = router.route? table) ∧
      ∀ topic bytes envelope origin, Envelope.parse bytes = .ok envelope →
        envelope.payload.source = some origin → origin.table = some table →
        ∃ event, ChangeEvent.ofBytes topic (some bytes) = .ok event ∧
          event.table = (match origin.schema.or origin.db with
            | some qualifier => qualifier ++ "." ++ table
            | none => table) ∧
          router.route? event.table = router.route? table := by
  intro router
  refine ⟨fun source => ?_, fun source source' hcase => ?_, fun source before after hb ha => ?_,
    fun table htable => ⟨fun qualifier => ?_, ?_⟩⟩
  · have hnames : NamesTable source (tableOf source) := namesTable_iff.2 rfl
    exact ⟨_, hnames, fun other h => (namesTable_iff.1 h).symm, fun kind =>
      route?_eq_some_iff aliases hnames⟩
  · exact router.route?_congr (tableOf_of_recased hcase).symm
  · exact router.route?_congr (tableOf_append_blanks hb ha source)
  · exact router.route?_congr (tableOf_qualified htable qualifier)
  · intro topic bytes envelope origin hparse hsource horigin
    have hname := ChangeEvent.table_ofPayload topic hsource horigin
    refine ⟨_, ChangeEvent.ofBytes_of_parse hparse topic, hname, ?_⟩
    rw [hname]
    split
    · exact router.route?_congr (tableOf_qualified htable _)
    · rfl

/-- Of two aliases for one table the later one counts, also for a source that is written otherwise
and for an event from a database. -/
theorem routes_by_table_clients :
    let aliases : List (String × Kind) := [("public.Clients", .order), (" clients", .customer)]
    let router := builtIn.withAliases aliases
    (NamesTable "\u00a0crm.Clients" "clients" ∧ IsLastAlias aliases "clients" .customer ∧
      router.route? "\u00a0crm.Clients" = some .customer) ∧
    ∃ event, ChangeEvent.ofBytes "topic" (some ("\x7b\"op\":\"d\",\"source\":" ++
        "\x7b\"db\":\"shop\",\"table\":\"CLIENTS \"\x7d\x7d").toUTF8.toList) = .ok event ∧
      event.table = "shop.CLIENTS " ∧ router.route? event.table = router.route? "CLIENTS " := by
  intro aliases router
  obtain ⟨hroute, -, -, hqualified⟩ := routes_by_table aliases
  have hnames : NamesTable "\u00a0crm.Clients" "clients" := namesTable_iff.2 (by decide +kernel)
  have hlast : IsLastAlias aliases "clients" .customer :=
    isLastAlias_iff.2 ⟨" clients", by decide +kernel +zetaReduce⟩
  refine ⟨⟨hnames, hlast, ?_⟩, ?_⟩
  · obtain ⟨table, -, hunique, hkind⟩ := hroute "\u00a0crm.Clients"
    rw [hkind, ← hunique _ hnames]
    exact .inl hlast
  · have hhead : ∀ c ∈ "CLIENTS ".toList.head?, isBlank c = false := by
      rw [show "CLIENTS ".toList.head? = some 'C' by decide]
      rintro c ⟨⟩
      decide
    obtain ⟨-, hevent⟩ := hqualified "CLIENTS " hhead
    exact hevent "topic" _ ⟨false, none, none, some _, .delete, none⟩
      ⟨none, none, some "shop", none, some "CLIENTS "⟩ (by cbv) rfl rfl

end Router

end ChangeFeed
