import Mathlib
import ChangeFeed.Configuration.Basic
import ChangeFeed.Proofs.Result
import ChangeFeed.Proofs.Routing

/-!
# Alias entries

A setting lists aliases as entries `table=kind`. `IsAlias` says which table and which kind an entry
is for, `IsFaulty` what can be wrong with one. An entry is read as the alias that it is
(`isAlias_iff`), and a faulty one is not read (`readAlias_of_isFaulty`). Of several entries for one
table the last one counts: a router made of them sends the sources of a table where its last entry
says (`route?_of_isLastEntry`), and those of a table without an entry where they went before
(`route?_of_no_entry`). No entry is for the sources without a table, which go nowhere
(`route?_of_no_table`).
-/

namespace ChangeFeed.Configuration

open Text

/-- An entry that is cut at its first equals sign. -/
structure IsCut (entry : String) (table kind : List Char) : Prop where
  parts : entry.toList = table ++ '=' :: kind
  first : '=' ∉ table

/-- A text with nothing but blanks behind its last dot. -/
def EndsInDot (cs : List Char) : Prop :=
  ∃ stem blanks, cs = stem ++ '.' :: blanks ∧ IsBlanks blanks

/-- An entry is an alias of a table for a kind. The text in front of the first equals sign names the
table; it is not blank and does not end in a dot. The text behind it is a source of the kind. -/
inductive IsAlias (entry table : String) (kind : Kind) : Prop
  | intro {name source} (hcut : IsCut entry name source) (hname : ¬IsBlanks name)
      (hdot : ¬EndsInDot name) (htable : NamesTable (.ofList name) table)
      (hkind : Router.builtIn.route? (.ofList source) = some kind)

/-- What can be wrong with an entry. -/
inductive IsFaulty (entry : String) : Prop
  | noEquals (h : '=' ∉ entry.toList)
  | blankTable {name source} (hcut : IsCut entry name source) (h : IsBlanks name)
  | dottedTable {name source} (hcut : IsCut entry name source) (h : EndsInDot name)
  | unknownKind {name source} (hcut : IsCut entry name source)
      (h : Router.builtIn.route? (.ofList source) = none)

/-- The kind that the last entry for a table is for. -/
inductive IsLastEntry (entries : List String) (table : String) (kind : Kind) : Prop
  | intro {earlier entry later} (hparts : entries = earlier ++ entry :: later)
      (halias : IsAlias entry table kind) (hlater : ∀ e ∈ later, ∀ k, ¬IsAlias e table k)

variable {entry table : String} {kind : Kind}

/-! ## Reading an entry -/

/-- A text ends in a dot exactly where trimming leaves one that does. -/
theorem endsInDot_iff {cs : List Char} : EndsInDot cs ↔ (trim cs).getLast? = some '.' :=
  (getLast?_trim_eq_some_iff (by decide)).symm

/-- Blanks around a name do not change its table. -/
theorem tableOf_trim (cs : List Char) : tableOf (.ofList (trim cs)) = tableOf (.ofList cs) := by
  obtain ⟨before, after, hbefore, hafter, -, hcs⟩ := exists_eq_append_trim cs
  have hnames := tableOf_append_blanks hbefore hafter (.ofList (trim cs))
  rw [← hnames, ← String.ofList_append, ← String.ofList_append, List.append_assoc, ← hcs]

/-- Where an entry has an equals sign, it is cut at the first one. -/
theorem isCut_iff {front back : List Char} :
    IsCut entry front back ↔ splitFirst '=' entry.toList = some (front, back) := by
  rw [splitFirst_eq_some_iff]
  exact ⟨fun h => ⟨h.parts, h.first⟩, fun h => ⟨h.1, h.2⟩⟩

/-- An entry is read as the alias that it is. -/
theorem isAlias_iff :
    IsAlias entry table kind ↔
      ∃ name, readAlias entry = .ok (name, kind) ∧ tableOf name = table := by
  have good {front : List Char} : ¬(trim front = [] ∨ (trim front).getLast? = some '.') ↔
      ¬IsBlanks front ∧ ¬EndsInDot front := by
    rw [trim_eq_nil_iff, ← endsInDot_iff, not_or]
  constructor
  · rintro ⟨hcut, hname, hdot, htable, hkind⟩
    next front back =>
    refine ⟨.ofList (trim front), ?_, (tableOf_trim front).trans (namesTable_iff.1 htable)⟩
    rw [← Router.route?_congr _ (tableOf_trim back)] at hkind
    simp only [readAlias, isCut_iff.1 hcut, if_neg (good.2 ⟨hname, hdot⟩), hkind]
  · rintro ⟨name, h, rfl⟩
    unfold readAlias at h
    split at h
    · cases h
    · next front back hcut =>
      dsimp only at h
      split at h
      · cases h
      · next hfront =>
        obtain ⟨hname, hdot⟩ := good.1 hfront
        split at h
        · cases h
        · next hkind =>
          cases h
          rw [Router.route?_congr _ (tableOf_trim back)] at hkind
          exact ⟨isCut_iff.2 hcut, hname, hdot, namesTable_iff.2 (tableOf_trim front).symm, hkind⟩

/-- A faulty entry is not read. -/
theorem readAlias_of_isFaulty (h : IsFaulty entry) :
    ∃ fault, readAlias entry = .error (.badAlias entry fault) := by
  unfold readAlias
  cases h with
  | noEquals h => exact ⟨.noEquals, by rw [splitFirst_eq_none_iff.2 h]⟩
  | blankTable hcut h =>
    refine ⟨.emptyTable, ?_⟩
    simp only [isCut_iff.1 hcut, if_pos (Or.inl (trim_eq_nil_iff.2 h))]
  | dottedTable hcut h =>
    refine ⟨.emptyTable, ?_⟩
    simp only [isCut_iff.1 hcut, if_pos (Or.inr (endsInDot_iff.1 h))]
  | @unknownKind front back hcut h =>
    rw [← Router.route?_congr _ (tableOf_trim back)] at h
    rw [isCut_iff.1 hcut]
    dsimp only
    split
    · exact ⟨.emptyTable, rfl⟩
    · exact ⟨.unknownKind, by rw [h]⟩

/-- An alias is not blank. -/
theorem IsAlias.not_isBlank (h : IsAlias entry table kind) : isBlank entry = false := by
  obtain ⟨hcut, -, -, -, -⟩ := h
  refine List.all_eq_false.2 ⟨'=', ?_, by decide⟩
  rw [hcut.parts]
  exact List.mem_append_right _ List.mem_cons_self

/-! ## The last entry for a table -/

/-- Where there are entries for a table, one of them is the last. -/
theorem exists_isLastEntry {entries : List String} (hentry : entry ∈ entries)
    (h : IsAlias entry table kind) : ∃ kind, IsLastEntry entries table kind := by
  induction entries generalizing entry kind with
  | nil => cases hentry
  | cons first rest ih =>
    by_cases hrest : ∃ e ∈ rest, ∃ k, IsAlias e table k
    · obtain ⟨e, he, k, halias⟩ := hrest
      obtain ⟨k', hparts, hlast, hlater⟩ := ih he halias
      next earlier last later =>
      have hparts : first :: rest = (first :: earlier) ++ last :: later := by
        rw [hparts, List.cons_append]
      exact ⟨k', .intro hparts hlast hlater⟩
    · have hnone : ∀ e ∈ rest, ∀ k, ¬IsAlias e table k :=
        fun e he k halias => hrest ⟨e, he, k, halias⟩
      rcases List.mem_cons.1 hentry with rfl | hmem
      · exact ⟨kind, .intro (List.nil_append _).symm h hnone⟩
      · exact absurd h (hnone entry hmem kind)

section

variable {c : Configuration} {aliases : List (String × Kind)}

/-- The aliases of a configuration are for the tables that its entries are for. -/
theorem mem_aliases (h : c.aliases = .ok aliases) :
    (∀ entry ∈ c.tableAliases, isBlank entry = false →
      ∃ name kind, (name, kind) ∈ aliases ∧ IsAlias entry (tableOf name) kind) ∧
    ∀ a ∈ aliases, ∃ entry ∈ c.tableAliases, IsAlias entry (tableOf a.1) a.2 := by
  obtain ⟨hentries, haliases⟩ := mem_of_mapM_eq_ok h
  refine ⟨fun entry hentry hblank => ?_, fun a ha => ?_⟩
  · obtain ⟨⟨name, kind⟩, ha, hread⟩ :=
      hentries entry (List.mem_filter.2 ⟨hentry, by rw [hblank]; rfl⟩)
    exact ⟨name, kind, ha, isAlias_iff.2 ⟨name, hread, rfl⟩⟩
  · obtain ⟨entry, hentry, hread⟩ := haliases a ha
    exact ⟨entry, (List.mem_filter.1 hentry).1, isAlias_iff.2 ⟨a.1, hread, rfl⟩⟩

/-- The last entry for a table gives the last alias for it. -/
theorem isLastAlias_of_isLastEntry (h : c.aliases = .ok aliases)
    (hlast : IsLastEntry c.tableAliases table kind) : Router.IsLastAlias aliases table kind := by
  obtain ⟨hparts, halias, hlater⟩ := hlast
  next earlier entry later =>
  obtain ⟨name, hread, hname⟩ := isAlias_iff.1 halias
  unfold Configuration.aliases at h
  rw [hparts, List.filter_append, List.filter_cons_of_pos (by rw [halias.not_isBlank]; rfl),
    List.mapM_append, List.mapM_cons] at h
  -- The entries before it, the entry itself and those behind it are read one after the other.
  obtain ⟨before, -, h⟩ := bind_eq_ok_iff.1 h
  obtain ⟨behind, hbehind, h⟩ := bind_eq_ok_iff.1 h
  obtain ⟨a, ha, hbehind⟩ := bind_eq_ok_iff.1 hbehind
  obtain ⟨after, hafter, hbehind⟩ := bind_eq_ok_iff.1 hbehind
  rw [hread] at ha
  cases ha
  cases hbehind
  cases h
  refine .intro rfl (namesTable_iff.2 hname) fun a ha htable => ?_
  obtain ⟨entry, hentry, hread⟩ := (mem_of_mapM_eq_ok hafter).2 a ha
  exact hlater entry (List.mem_filter.1 hentry).1 a.2
    (isAlias_iff.2 ⟨a.1, hread, namesTable_iff.1 htable⟩)

end

/-! ## The router of a configuration -/

section

variable {c : Configuration} {router : Router} {source : String}

/-- The router of a configuration is made of its aliases. -/
theorem router_eq_ok_iff :
    c.router = .ok router ↔
      ∃ aliases, c.aliases = .ok aliases ∧ Router.builtIn.withAliases aliases = router :=
  map_eq_ok_iff

/-- The sources of a table go where the last entry for it says. -/
theorem route?_of_isLastEntry (h : c.router = .ok router)
    (hlast : IsLastEntry c.tableAliases table kind) (hsource : NamesTable source table) :
    router.route? source = some kind := by
  obtain ⟨aliases, haliases, rfl⟩ := router_eq_ok_iff.1 h
  exact (Router.route?_eq_some_iff aliases hsource).2
    (.inl (isLastAlias_of_isLastEntry haliases hlast))

/-- The sources of a table without an entry go where they go without any entries. -/
theorem route?_of_no_entry (h : c.router = .ok router) (hsource : NamesTable source table)
    (hnone : ∀ entry ∈ c.tableAliases, ∀ kind, ¬IsAlias entry table kind) :
    router.route? source = Router.builtIn.route? source := by
  obtain ⟨aliases, haliases, rfl⟩ := router_eq_ok_iff.1 h
  have hunnamed : ∀ a ∈ aliases.reverse, ¬ tableOf a.1 = tableOf source := by
    intro a ha htable
    obtain ⟨entry, hentry, halias⟩ := (mem_aliases haliases).2 a (List.mem_reverse.1 ha)
    rw [htable, namesTable_iff.1 hsource] at halias
    exact hnone entry hentry a.2 halias
  have hfind : aliases.reverse.find? (fun a => tableOf a.1 = tableOf source) = none :=
    List.find?_eq_none.2 fun a ha => by simpa using hunnamed a ha
  rw [Router.route?_withAliases, hfind, Option.map_none, Option.none_or, Router.route?_builtIn]

/-- The table of a source is empty exactly where the source is blank or ends in a dot. -/
theorem tableOf_eq_empty_iff :
    tableOf source = "" ↔ IsBlanks source.toList ∨ EndsInDot source.toList := by
  have hempty : tableOf source = "" ↔ lastSegment '.' (trim source.toList) = [] := by
    unfold tableOf lowerAscii
    rw [← String.toList_eq_nil_iff, String.toList_ofList, List.map_eq_nil_iff]
  rw [hempty, lastSegment_eq_iff, trim_eq_nil_iff, endsInDot_iff, List.getLast?_eq_some_iff]
  exact and_iff_right List.not_mem_nil

/-- A source that is blank or ends in a dot goes nowhere, whatever the entries. -/
theorem route?_of_no_table (h : c.router = .ok router)
    (hsource : IsBlanks source.toList ∨ EndsInDot source.toList) :
    router.route? source = none := by
  have htable : tableOf source = "" := tableOf_eq_empty_iff.2 hsource
  have hnone : ∀ entry ∈ c.tableAliases, ∀ kind, ¬IsAlias entry "" kind := by
    rintro entry - kind ⟨-, hname, hdot, hnames, -⟩
    have := tableOf_eq_empty_iff.1 (namesTable_iff.1 hnames)
    rw [String.toList_ofList] at this
    exact this.elim hname hdot
  rw [route?_of_no_entry h (namesTable_iff.2 htable) hnone, Router.route?_builtIn, htable]
  -- Nor is there a kind with an empty table name.
  decide

end

end ChangeFeed.Configuration
