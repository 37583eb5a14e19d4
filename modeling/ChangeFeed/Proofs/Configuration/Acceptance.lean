import ChangeFeed.Configuration.Reader
import ChangeFeed.Proofs.Configuration.Aliases

/-!
# What an accepted configuration is good for

A configuration is accepted when its pairs can be read and its checks are passed, and the checks say
no more than `IsValid` (`validate_eq_ok_iff`). A setting can be given by one pair only, so that the
entries of an accepted configuration are those of the pair that lists them
(`tableAliases_of_readPairs`): if one of these is faulty, there is no such configuration. Once
accepted, it gives everything that a service is started with (`IsUsable`), in particular a router
that keeps to the entries. `usable_of_ofPairs` puts both together.
-/

namespace ChangeFeed.Configuration

open Text

variable {c c' : Configuration}

/-! ## The checks -/

/-- A configuration that passes every check. -/
structure IsValid (c : Configuration) : Prop where
  brokers : isBlank c.kafkaBrokers = false
  topics : ∃ topic ∈ c.topics, isBlank topic = false
  batchSize : c.batchSize ≠ 0
  workers : c.workers ≠ 0
  partitions : c.partitions ≠ 0
  pollTimeout : c.pollTimeoutMillis ≠ 0
  storeTimeout : c.storeTimeoutMillis ≠ 0
  multiplier : isGrowthFactor c.retryMultiplier = true
  aliases : ∃ aliases, c.aliases = .ok aliases

/-- A setting that has to be positive passes exactly when it is not zero. -/
theorem requirePositive_eq_ok_iff {n : Nat} {subject : String} {u : Unit} :
    requirePositive n subject = .ok u ↔ n ≠ 0 := by
  unfold requirePositive
  split <;> simp [*]

/-- A step behind a check is taken exactly when nothing is wrong. -/
theorem check_eq_ok_iff {wrong : Bool} {e : ConfigurationError}
    {next : Unit → Except ConfigurationError Unit} :
    (if wrong = true then throw e >>= next else next ()) = .ok () ↔
      wrong = false ∧ next () = .ok () := by
  cases wrong with
  | true => simp [bind, Except.bind, throw, throwThe, MonadExceptOf.throw]
  | false => simp

/-- The checks are passed exactly by the valid configurations. -/
theorem validate_eq_ok_iff {u : Unit} : c.validate = .ok u ↔ c.IsValid := by
  have hchecks : c.validate = .ok () ↔ isBlank c.kafkaBrokers = false ∧
      c.topics.all isBlank = false ∧ c.batchSize ≠ 0 ∧ c.workers ≠ 0 ∧ c.partitions ≠ 0 ∧
      c.pollTimeoutMillis ≠ 0 ∧ c.storeTimeoutMillis ≠ 0 ∧
      (!isGrowthFactor c.retryMultiplier) = false ∧ ∃ aliases, c.aliases = .ok aliases := by
    unfold validate
    simp only [check_eq_ok_iff, bind_eq_ok_iff, requirePositive_eq_ok_iff, exists_and_left,
      exists_const, pure, Except.pure, and_true]
  rw [hchecks, List.all_eq_false, Bool.not_eq_false']
  constructor
  · rintro ⟨hbrokers, ⟨topic, hmem, htopic⟩, hbatch, hworkers, hpartitions, hpoll, hstore, hfactor,
      haliases⟩
    exact ⟨hbrokers, ⟨topic, hmem, by simpa using htopic⟩, hbatch, hworkers, hpartitions, hpoll,
      hstore, hfactor, haliases⟩
  · rintro ⟨hbrokers, ⟨topic, hmem, htopic⟩, hbatch, hworkers, hpartitions, hpoll, hstore, hfactor,
      haliases⟩
    exact ⟨hbrokers, ⟨topic, hmem, by simpa using htopic⟩, hbatch, hworkers, hpartitions, hpoll,
      hstore, hfactor, haliases⟩

/-! ## Reading the entries -/

/-- The setting that a key names. -/
def Field.ofKey? (key : String) : Option Field :=
  (stripKey? key).bind fun name => Field.ofName? (lowerKey name)

/-- A setting other than the entries leaves them alone. -/
theorem tableAliases_of_set {field : Field} {value : String} (h : c.set field value = .ok c')
    (hother : field ≠ .tableAliases) : c'.tableAliases = c.tableAliases := by
  cases field with
  | tableAliases => exact absurd rfl hother
  | kafkaBrokers | groupId | topics =>
    cases h
    rfl
  | _ =>
    obtain ⟨_, -, rfl⟩ := map_eq_ok_iff.1 h
    rfl

/-- The entries that pairs are read into are those of the pair that lists them. Where they have been
set before, no other pair can do so. -/
theorem tableAliases_of_readPairs {seen : List Field} {pairs : List (String × String)}
    (h : readPairs seen c pairs = .ok c') :
    (.tableAliases ∈ seen → c'.tableAliases = c.tableAliases) ∧
    ∀ key value, (key, value) ∈ pairs → Field.ofKey? key = some .tableAliases →
      c'.tableAliases = readList value := by
  -- A pair whose key names no setting is passed over.
  have skip : ∀ {key value rest}, Field.ofKey? key = none →
      (∀ k v, (k, v) ∈ rest → Field.ofKey? k = some .tableAliases → c'.tableAliases = readList v) →
      ∀ k v, (k, v) ∈ (key, value) :: rest → Field.ofKey? k = some .tableAliases →
        c'.tableAliases = readList v := by
    intro key value rest hnone hrest k v hmem hk
    rcases List.mem_cons.1 hmem with heq | hmem
    · cases heq
      rw [hnone] at hk
      cases hk
    · exact hrest k v hmem hk
  fun_induction readPairs seen c pairs with
  | case1 seen c =>
    cases h
    exact ⟨fun _ => rfl, fun _ _ hmem => absurd hmem List.not_mem_nil⟩
  | case2 seen c key value rest hstrip ih =>
    have hnone : Field.ofKey? key = none := by rw [Field.ofKey?, hstrip]; rfl
    exact ⟨(ih h).1, skip hnone (ih h).2⟩
  | case3 seen c key value rest name hstrip hname ih =>
    have hnone : Field.ofKey? key = none := by rw [Field.ofKey?, hstrip]; exact hname
    exact ⟨(ih h).1, skip hnone (ih h).2⟩
  | case4 seen c key value rest name hstrip field hname hseen => cases h
  | case5 seen c key value rest name hstrip field hname hseen fault hset => cases h
  | case6 seen c key value rest name hstrip field hname hnew c₁ hset ih =>
    have hfield : Field.ofKey? key = some field := by rw [Field.ofKey?, hstrip]; exact hname
    obtain ⟨hkeep, hrest⟩ := ih h
    refine ⟨fun hseen => ?_, fun k v hmem hk => ?_⟩
    · have hother : field ≠ .tableAliases := by
        rintro rfl
        exact hnew hseen
      rw [hkeep (List.mem_cons_of_mem _ hseen), tableAliases_of_set hset hother]
    · rcases List.mem_cons.1 hmem with heq | hmem
      · cases heq
        rw [hfield] at hk
        cases hk
        cases hset
        exact hkeep List.mem_cons_self
      · exact hrest k v hmem hk

/-- An accepted configuration is valid, and its pairs can be read. -/
theorem ofPairs_eq_ok_iff {pairs : List (String × String)} :
    ofPairs pairs = .ok c ↔ readPairs [] default pairs = .ok c ∧ c.IsValid := by
  unfold ofPairs
  simp only [bind_eq_ok_iff, validate_eq_ok_iff, exists_and_left, exists_const]
  constructor
  · rintro ⟨c', hread, hvalid, h⟩
    cases h
    exact ⟨hread, hvalid⟩
  · rintro ⟨hread, hvalid⟩
    exact ⟨c, hread, hvalid, rfl⟩

/-! ## What it is good for -/

/-- A configuration that gives what a service is started with, but for the router. -/
structure IsUsable (c : Configuration) : Prop where
  someTopic : c.trimmedTopics ≠ []
  topics : ∀ topic ∈ c.trimmedTopics, IsTrimmed topic.toList ∧ ¬IsBlanks topic.toList
  batchSize : 0 < c.batchSize
  workers : 0 < c.workers
  partitions : 0 < c.partitions
  pollTimeout : 0 < c.tuning.pollTimeout.nanos
  storeTimeout : 0 < c.tuning.storeTimeout.nanos
  /-- After failures of the log client a worker may wait for a second at least. -/
  maxBackoff : (Duration.ofSeconds 1).nanos ≤ c.consumerMaxBackoff.nanos

/-- A text is blank if it has nothing but blanks. -/
theorem isBlank_iff {s : String} : isBlank s = true ↔ IsBlanks s.toList :=
  List.all_eq_true

/-- A number of milliseconds takes some time, unless it is zero. -/
theorem nanos_ofMillis_pos {n : Nat} (h : n ≠ 0) : 0 < (Duration.ofMillis n).nanos := by
  unfold Duration.ofMillis
  rw [Duration.nanos_ofNanos]
  unfold Duration.maxNanos
  omega

/-- More seconds take no less time. -/
theorem nanos_ofSeconds_le {m n : Nat} (h : m ≤ n) :
    (Duration.ofSeconds m).nanos ≤ (Duration.ofSeconds n).nanos := by
  unfold Duration.ofSeconds
  rw [Duration.nanos_ofNanos, Duration.nanos_ofNanos]
  omega

/-- The topics that are left when blank ones are dropped are trimmed, and not blank. -/
theorem isTrimmed_of_mem_trimmedTopics {topic : String} (h : topic ∈ c.trimmedTopics) :
    IsTrimmed topic.toList ∧ ¬IsBlanks topic.toList := by
  obtain ⟨hmem, hne⟩ := List.mem_filter.1 h
  obtain ⟨raw, -, rfl⟩ := List.mem_map.1 hmem
  obtain ⟨_, _, -, -, htrimmed, -⟩ := exists_eq_append_trim raw.toList
  have hchars : (trimmed raw).toList = trim raw.toList := String.toList_ofList
  rw [hchars]
  refine ⟨htrimmed, htrimmed.not_isBlanks fun hnil => ?_⟩
  have hempty : trimmed raw = "" := by
    rw [← String.toList_eq_nil_iff, hchars, hnil]
  exact of_decide_eq_true hne hempty

/-- A valid configuration is usable. -/
theorem IsValid.isUsable (h : c.IsValid) : c.IsUsable where
  someTopic := by
    obtain ⟨topic, hmem, htopic⟩ := h.topics
    have hne : trimmed topic ≠ "" := by
      intro hempty
      rw [← String.toList_eq_nil_iff, trimmed, String.toList_ofList, trim_eq_nil_iff,
        ← isBlank_iff, htopic] at hempty
      cases hempty
    exact List.ne_nil_of_mem
      (List.mem_filter.2 ⟨List.mem_map_of_mem hmem, decide_eq_true hne⟩)
  topics _ := isTrimmed_of_mem_trimmedTopics
  batchSize := Nat.pos_of_ne_zero h.batchSize
  workers := Nat.pos_of_ne_zero h.workers
  partitions := Nat.pos_of_ne_zero h.partitions
  pollTimeout := nanos_ofMillis_pos h.pollTimeout
  storeTimeout := nanos_ofMillis_pos h.storeTimeout
  maxBackoff := nanos_ofSeconds_le (Nat.le_max_right ..)

/-- A valid configuration has no faulty entry but blank ones. -/
theorem IsValid.not_isFaulty (h : c.IsValid) {entry : String} (hentry : entry ∈ c.tableAliases)
    (hblank : ¬IsBlanks entry.toList) : ¬IsFaulty entry := by
  intro hfaulty
  obtain ⟨aliases, haliases⟩ := h.aliases
  rw [← isBlank_iff, Bool.not_eq_true] at hblank
  obtain ⟨name, kind, -, halias⟩ := (mem_aliases haliases).1 entry hentry hblank
  obtain ⟨name', hread, -⟩ := isAlias_iff.1 halias
  obtain ⟨fault, hfault⟩ := readAlias_of_isFaulty hfaulty
  rw [hread] at hfault
  cases hfault

/-- An accepted configuration is fully usable. It has topics to consume, sizes and limits that are
not zero, and a router: the sources of a table that entries are for go where the last one of these
says, those of another table where the kinds' own names say, and a source that is blank or ends in a
dot goes nowhere. Every entry of it that is not blank is for a table. So no configuration is
accepted from pairs that list an entry which is neither blank nor for a table: because it has no
equals sign, a table that is blank or ends in a dot, or a kind that no name leads to. -/
theorem usable_of_ofPairs (pairs : List (String × String)) :
    (∀ c, ofPairs pairs = .ok c → c.IsUsable ∧
      ∃ aliases router, c.aliases = .ok aliases ∧ c.router = .ok router ∧
        (∀ entry ∈ c.tableAliases, ¬IsBlanks entry.toList → ∃ table own kind,
          IsAlias entry table own ∧ IsLastEntry c.tableAliases table kind) ∧
        (∀ source table kind, NamesTable source table → IsLastEntry c.tableAliases table kind →
          router.route? source = some kind) ∧
        (∀ source table, NamesTable source table →
          (∀ entry ∈ c.tableAliases, ∀ kind, ¬IsAlias entry table kind) →
          router.route? source = Router.builtIn.route? source) ∧
        ∀ source : String, IsBlanks source.toList ∨ EndsInDot source.toList →
          router.route? source = none) ∧
    ∀ key value entry, (key, value) ∈ pairs → Field.ofKey? key = some .tableAliases →
      entry ∈ readList value → ¬IsBlanks entry.toList → IsFaulty entry →
      ∃ e, ofPairs pairs = .error e := by
  refine ⟨fun c h => ?_, fun key value entry hpair hkey hentry hblank hfaulty => ?_⟩
  · obtain ⟨-, hvalid⟩ := ofPairs_eq_ok_iff.1 h
    obtain ⟨aliases, haliases⟩ := hvalid.aliases
    have hrouter : c.router = .ok (Router.builtIn.withAliases aliases) :=
      router_eq_ok_iff.2 ⟨aliases, haliases, rfl⟩
    refine ⟨hvalid.isUsable, aliases, _, haliases, hrouter, fun entry hentry hblank => ?_,
      fun source table kind hsource hlast => route?_of_isLastEntry hrouter hlast hsource,
      fun source table hsource hnone => route?_of_no_entry hrouter hsource hnone,
      fun source hsource => route?_of_no_table hrouter hsource⟩
    rw [← isBlank_iff, Bool.not_eq_true] at hblank
    obtain ⟨name, own, -, halias⟩ := (mem_aliases haliases).1 entry hentry hblank
    obtain ⟨kind, hlast⟩ := exists_isLastEntry hentry halias
    exact ⟨tableOf name, own, kind, halias, hlast⟩
  · cases hresult : ofPairs pairs with
    | error e => exact ⟨e, rfl⟩
    | ok c =>
      obtain ⟨hread, hvalid⟩ := ofPairs_eq_ok_iff.1 hresult
      have hlisted := (tableAliases_of_readPairs hread).2 key value hpair hkey
      rw [← hlisted] at hentry
      exact absurd hfaulty (hvalid.not_isFaulty hentry hblank)

/-- Of two entries for one table the second decides. An entry whose table ends in a dot is
refused. -/
theorem usable_of_ofPairs_clients :
    (∃ c router, ofPairs [("CDC_TABLE_ALIASES", "clients=customers, crm.Clients = a=b.orders,")] =
        .ok c ∧ c.router = .ok router ∧ c.IsUsable ∧
      router.route? "shop.CLIENTS " = some .order ∧
      router.route? "shop.products" = Router.builtIn.route? "shop.products" ∧
      router.route? "clients. " = none) ∧
    ∃ e, ofPairs [("CDC_TABLE_ALIASES", "clients=customers,public. =orders")] = .error e := by
  have haccepted : ofPairs [("CDC_TABLE_ALIASES", "clients=customers, crm.Clients = a=b.orders,")] =
      .ok { default with
        tableAliases := ["clients=customers", " crm.Clients = a=b.orders", ""] } := by
    decide +kernel
  obtain ⟨husable, aliases, router, haliases, hrouter, -, hlast, hother, hnowhere⟩ :=
    (usable_of_ofPairs _).1 _ haccepted
  -- The blank entry behind it is not for any table.
  have hsecond : IsLastEntry ["clients=customers", " crm.Clients = a=b.orders", ""] "clients"
      .order := by
    refine .intro List.singleton_append.symm (isAlias_iff.2 ⟨"crm.Clients", ?_, ?_⟩) ?_
    · decide +kernel
    · decide +kernel
    · rintro e he k halias
      rw [List.mem_singleton.1 he] at halias
      cases halias.not_isBlank
  have hproducts : ∀ e ∈ ["clients=customers", " crm.Clients = a=b.orders", ""],
      (readAlias e).map (fun a => tableOf a.1) ≠ .ok "products" := by
    decide +kernel
  have hcut : IsCut "public. =orders" "public. ".toList "orders".toList :=
    ⟨by decide +kernel, by decide +kernel⟩
  refine ⟨⟨_, router, haccepted, hrouter, husable, ?_, ?_, ?_⟩, ?_⟩
  · exact hlast _ _ _ (namesTable_iff.2 (by decide +kernel)) hsecond
  · refine hother _ "products" (namesTable_iff.2 (by decide +kernel)) fun e he kind halias => ?_
    obtain ⟨name, hread, hname⟩ := isAlias_iff.1 halias
    refine hproducts e he ?_
    rw [hread]
    exact congrArg Except.ok hname
  · exact hnowhere _ (.inr ⟨"clients".toList, [' '], by decide +kernel, by decide +kernel⟩)
  · refine (usable_of_ofPairs _).2 _ _ "public. =orders" List.mem_cons_self ?_ ?_ ?_
      (.dottedTable hcut ⟨"public".toList, [' '], ?_, ?_⟩)
    · decide +kernel
    · decide +kernel
    · decide +kernel
    · decide +kernel
    · decide +kernel

end ChangeFeed.Configuration
