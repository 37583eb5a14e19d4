import Mathlib
import ChangeFeed.Proofs.Event.Payload
import ChangeFeed.Proofs.Json.Grammar

/-!
# Two layouts of one change

A payload arrives alone or in a wrapper, its members stand in any order among others that are not
its own, and what is absent may be written as null. `Payload.Varies` lists these liberties, also
those of a source inside the payload. None of them changes what is told (`Payload.IsTold.varies`),
and a payload that has no member `payload` is not taken for a wrapper, although that is tried first.
So every text of the change, in either layout, is read as the same event
(`ChangeEvent.ofBytes_of_isTold`).
-/

namespace ChangeFeed

/-! ## Members -/

namespace Json

/-- Members that leave alone what is told under known keys: in another order, with others among
them, or with null for an optional one that is absent. -/
inductive Varies (known optional : List String) :
    List (String × Json) → List (String × Json) → Prop
  | order {ms ms'} (h : ms.Perm ms') : Varies known optional ms ms'
  | unknown {ms key v} (h : key ∉ known) : Varies known optional ms ((key, v) :: ms)
  | null {ms key} (hkey : key ∈ optional) (habsent : ∀ m ∈ ms, m.1 ≠ key) :
      Varies known optional ms ((key, .null) :: ms)
  | trans {ms ms' ms''} (h : Varies known optional ms ms') (h' : Varies known optional ms' ms'') :
      Varies known optional ms ms''

/-- Under a known key the same values are found, or null for an optional member that was absent. -/
theorem Varies.values {known optional : List String} {ms ms' : List (String × Json)}
    (h : Varies known optional ms ms') {key : String} (hkey : key ∈ known) :
    (Json.values ms key).Perm (Json.values ms' key) ∨
      key ∈ optional ∧ Json.values ms key = [] ∧ Json.values ms' key = [.null] := by
  induction h with
  | order h => exact .inl ((h.filter _).map _)
  | @unknown ms key' v h =>
    have hne : key' ≠ key := fun heq => h (heq ▸ hkey)
    rw [values_cons_of_ne hne]
    exact .inl (.refl _)
  | @null ms key' hoptional habsent =>
    by_cases heq : key' = key
    · subst heq
      rw [values_cons_self, values_eq_nil_iff.2 habsent]
      exact .inr ⟨hoptional, rfl, rfl⟩
    · rw [values_cons_of_ne heq]
      exact .inl (.refl _)
  | trans _ _ ih ih' =>
    rcases ih with hperm | ⟨hoptional, hnone, hnull⟩
    · rcases ih' with hperm' | ⟨hoptional, hnone, hnull⟩
      · exact .inl (hperm.trans hperm')
      · rw [hnone, List.perm_nil] at hperm
        exact .inr ⟨hoptional, hperm, hnull⟩
    · rcases ih' with hperm' | ⟨-, hnone', -⟩
      · rw [hnull, List.singleton_perm] at hperm'
        exact .inr ⟨hoptional, hnone, hperm'.symm⟩
      · rw [hnull] at hnone'
        cases hnone'

/-- Where one value of an optional field is known, there is no other. -/
theorem Tells.eq_nil_of_append {α : Type} {means : Json → α → Prop} {vs vs' : List Json} {v : Json}
    {a? : Option α} (h : Tells means (vs ++ v :: vs') a?) : vs = [] ∧ vs' = [] := by
  have hlength : (vs ++ v :: vs').length ≤ 1 := by
    obtain ⟨v?, hv⟩ := h.exists_toList
    rw [hv]
    cases v? <;> simp
  rw [List.length_append, List.length_cons] at hlength
  exact ⟨List.eq_nil_of_length_eq_zero (by omega), List.eq_nil_of_length_eq_zero (by omega)⟩

/-- An optional field tells the same under members that vary. -/
theorem Tells.varies {α : Type} {means : Json → α → Prop} {known optional : List String}
    {ms ms' : List (String × Json)} {key : String} {a? : Option α}
    (h : Tells means (Json.values ms key) a?) (hvaries : Varies known optional ms ms')
    (hkey : key ∈ known) : Tells means (Json.values ms' key) a? := by
  rcases hvaries.values hkey with hperm | ⟨-, hnone, hnull⟩
  · -- There is one value at most, so that no order is left.
    obtain ⟨v?, hv⟩ := h.exists_toList
    rw [hv] at h hperm
    cases v? with
    | none => rwa [List.nil_perm.1 hperm]
    | some v => rwa [← List.singleton_perm.1 hperm]
  · rw [hnone] at h
    rw [hnull]
    cases h
    exact .null

end Json

/-! ## Payloads -/

/-- A source tells the same under members that vary. -/
theorem Source.IsTold.varies {source : Source} {ms ms' : List (String × Json)}
    (h : source.IsTold (Json.values ms))
    (hvaries : Json.Varies Source.fields Source.fields ms ms') :
    source.IsTold (Json.values ms') :=
  ⟨h.connector.varies hvaries (by decide), h.name.varies hvaries (by decide),
    h.db.varies hvaries (by decide), h.schema.varies hvaries (by decide),
    h.table.varies hvaries (by decide)⟩

namespace Payload

/-- The fields of a payload that may be absent. -/
def optionalFields : List String :=
  ["before", "after", "source", "ts_ms"]

/-- Members that tell the same payload, and have no member `payload` among them if there was none:
they vary, or those of the source do. -/
inductive Varies : List (String × Json) → List (String × Json) → Prop
  | members {ms ms'} (h : Json.Varies ("payload" :: fields) optionalFields ms ms') : Varies ms ms'
  | source {before after ms ms'} (h : Json.Varies Source.fields Source.fields ms ms') :
      Varies (before ++ ("source", .object ms) :: after)
        (before ++ ("source", .object ms') :: after)
  | trans {ms ms' ms''} (h : Varies ms ms') (h' : Varies ms' ms'') : Varies ms ms''

variable {payload : Payload} {ms ms' : List (String × Json)}

/-- The value of one member is not found under another key. -/
theorem values_middle {key key' : String} (h : key ≠ key') (before after : List (String × Json))
    (v v' : Json) : Json.values (before ++ (key, v) :: after) key' =
      Json.values (before ++ (key, v') :: after) key' := by
  rw [Json.values_append, Json.values_append, Json.values_cons_of_ne h, Json.values_cons_of_ne h]

/-- A payload tells the same under members that vary. -/
theorem IsTold.varies (h : payload.IsTold (Json.values ms)) (hvaries : Varies ms ms') :
    payload.IsTold (Json.values ms') := by
  induction hvaries with
  | members hvaries =>
    refine ⟨h.before.varies hvaries (by decide), h.after.varies hvaries (by decide),
      h.source.varies hvaries (by decide), ?_, h.timestamp.varies hvaries (by decide)⟩
    obtain ⟨v, hv, hop⟩ := h.operation
    rcases hvaries.values (by decide : "op" ∈ "payload" :: fields) with hperm | ⟨hoptional, -⟩
    · rw [hv, List.singleton_perm] at hperm
      exact ⟨v, hperm.symm, hop⟩
    · exact absurd hoptional (by decide)
  | @source before after ms ms' hvaries =>
    have other : ∀ {key : String}, "source" ≠ key →
        Json.values (before ++ ("source", .object ms) :: after) key =
          Json.values (before ++ ("source", .object ms') :: after) key := fun hkey =>
      values_middle hkey before after _ _
    have hbefore := h.before
    have hafter := h.after
    have hop := h.operation
    have htimestamp := h.timestamp
    rw [other (by decide)] at hbefore hafter hop htimestamp
    refine ⟨hbefore, hafter, ?_, hop, htimestamp⟩
    have hsource := h.source
    rw [Json.values_append, Json.values_cons_self] at hsource ⊢
    -- There is no other source in front or behind.
    obtain ⟨hfront, hbehind⟩ := hsource.eq_nil_of_append
    rw [hfront, hbehind] at hsource ⊢
    generalize payload.source = source? at hsource ⊢
    cases hsource with
    | value hv hmeans =>
      cases hmeans with
      | object htold => exact .value (fun h => nomatch h) (.object (htold.varies hvaries))
  | trans _ _ ih ih' => exact ih' (ih h)

/-- Members that vary have no member `payload` either. -/
theorem Varies.own (hvaries : Varies ms ms') (h : Json.values ms "payload" = []) :
    Json.values ms' "payload" = [] := by
  induction hvaries with
  | members hvaries =>
    rcases hvaries.values (by decide : "payload" ∈ "payload" :: fields) with hperm | ⟨hoptional, -⟩
    · rw [h] at hperm
      exact List.nil_perm.1 hperm
    · exact absurd hoptional (by decide)
  | source hvaries =>
    rwa [values_middle (by decide : "source" ≠ "payload")] at h
  | trans _ _ ih ih' => exact ih' (ih h)

end Payload

/-! ## Envelopes -/

namespace Envelope

variable {payload : Payload} {ms : List (String × Json)}

/-- A payload without a member `payload` is not taken for a wrapper. -/
theorem ofJson?_alone (told : payload.IsTold (Json.values ms))
    (own : Json.values ms "payload" = []) : ofJson? (.object ms) = some ⟨false, payload⟩ := by
  have hsole : Json.sole? ms "payload" = some none := Json.sole?_eq_some_iff.2 own
  have hwrapped : wrapped? (.object ms) = none := by
    unfold wrapped?
    dsimp only
    rw [hsole]
  unfold ofJson?
  rw [hwrapped, (Payload.ofJson?_eq_some_iff _ _).2 (.object told)]
  rfl

/-- An object whose one member `payload` tells a payload is a wrapper. -/
theorem ofJson?_wrapped {v : Json} (told : Payload.Means v payload)
    (sole : Json.values ms "payload" = [v]) : ofJson? (.object ms) = some ⟨true, payload⟩ := by
  have hsole : Json.sole? ms "payload" = some (some v) := Json.sole?_eq_some_iff.2 sole
  have hwrapped : wrapped? (.object ms) = some payload := by
    unfold wrapped?
    dsimp only
    rw [hsole]
    exact (Payload.ofJson?_eq_some_iff _ _).2 told
  unfold ofJson?
  rw [hwrapped]

/-- An envelope is read from every text of it that is not nested too deep. -/
theorem parse_of_isDocument {v : Json} {envelope : Envelope} {bytes : List UInt8}
    (henvelope : ofJson? v = some envelope) (shallow : v.nesting ≤ Json.maxDepth)
    (text : Json.IsDocument bytes v) : parse bytes = .ok envelope := by
  obtain ⟨rest, hbegins, hend⟩ := text
  unfold parse
  rw [Json.readFirst_eq_ok_iff.2 ⟨hbegins, shallow⟩]
  dsimp only
  rw [henvelope]
  dsimp only
  rw [Json.checkEnd_eq_ok_iff.2 hend]

end Envelope

/-! ## Events -/

/-- Every text of a change is read as the same event, if it is nested no deeper than 126. The
change may be told by its payload alone, or by a wrapper with other members around the payload; and
the payload may stand for any other that it is a variation of. -/
theorem ChangeEvent.ofBytes_of_isTold {payload : Payload} {ms ms' : List (String × Json)}
    (told : payload.IsTold (Json.values ms)) (own : ∀ m ∈ ms, m.1 ≠ "payload")
    (varies : Payload.Varies ms ms') (shallow : (Json.object ms').nesting ≤ 126)
    (topic : String) :
    (∀ bytes, Json.IsDocument bytes (.object ms') →
      ofBytes topic (some bytes) = .ok (ofPayload topic payload)) ∧
    ∀ before after bytes,
      (∀ m ∈ before ++ after, m.1 ≠ "payload" ∧ m.2.nesting ≤ 126) →
      Json.IsDocument bytes (.object (before ++ ("payload", .object ms') :: after)) →
      ofBytes topic (some bytes) = .ok (ofPayload topic payload) := by
  have htold := told.varies varies
  have hown := varies.own (Json.values_eq_nil_iff.2 own)
  refine ⟨fun bytes text => ?_, fun before after bytes others text => ?_⟩
  · have hparse := Envelope.parse_of_isDocument (Envelope.ofJson?_alone htold hown)
      (shallow.trans (by decide)) text
    exact ofBytes_of_parse hparse topic
  · have hothers : ∀ m ∈ before ++ after, m.1 ≠ "payload" := fun m hm => (others m hm).1
    have hsole : Json.values (before ++ ("payload", .object ms') :: after) "payload" =
        [.object ms'] := by
      rw [Json.values_append, Json.values_cons_self,
        Json.values_eq_nil_iff.2 fun m hm => hothers m (List.mem_append_left _ hm),
        Json.values_eq_nil_iff.2 fun m hm => hothers m (List.mem_append_right _ hm)]
      rfl
    have hdeep : (Json.object (before ++ ("payload", .object ms') :: after)).nesting ≤
        Json.maxDepth := by
      refine Nat.succ_le_succ (Json.nestingMembers_le_iff.2 fun m hm => ?_)
      rcases List.mem_append.1 hm with hm | hm
      · exact (others m (List.mem_append_left _ hm)).2
      rcases List.mem_cons.1 hm with rfl | hm
      · exact shallow
      · exact (others m (List.mem_append_right _ hm)).2
    have hparse := Envelope.parse_of_isDocument (Envelope.ofJson?_wrapped (.object htold) hsole)
      hdeep text
    exact ofBytes_of_parse hparse topic

/-- An order that was added, alone and in a wrapper. There is a member that is unknown to its
source, and a timestamp that is null. -/
theorem ChangeEvent.ofBytes_of_isTold_added :
    let image : Json := .object [("id", .ofInt64 1)]
    let origin : List (String × Json) := [("table", .string "orders")]
    let ms : List (String × Json) :=
      [("op", .string "c"), ("source", .object origin), ("after", image)]
    let ms' : List (String × Json) := [("ts_ms", .null), ("op", .string "c"),
      ("source", .object (("lsn", .ofInt64 7) :: origin)), ("after", image)]
    let source : Source := ⟨none, none, none, none, some "orders"⟩
    let payload : Payload := ⟨none, some image, some source, .insert, none⟩
    let event : ChangeEvent := ⟨.insert, none, some image, "orders", none⟩
    let alone := "\x7b\"ts_ms\":null,\"op\":\"c\"," ++
      "\"source\":\x7b\"lsn\":7,\"table\":\"orders\"\x7d,\"after\":\x7b\"id\":1\x7d\x7d"
    let wrapped := "\x7b\"schema\":\x7b\x7d,\"payload\":" ++ alone ++ "\x7d"
    (payload.IsTold (Json.values ms) ∧ (∀ m ∈ ms, m.1 ≠ "payload") ∧ Payload.Varies ms ms' ∧
      (Json.object ms').nesting ≤ 126) ∧
      ofBytes "shop" (some alone.toUTF8.toList) = .ok event ∧
      ofBytes "shop" (some wrapped.toUTF8.toList) = .ok event := by
  intro image origin ms ms' source payload event alone wrapped
  have told : payload.IsTold (Json.values ms) := by
    refine ⟨.absent, .value (fun h => nomatch h) rfl, .value (fun h => nomatch h) (.object ?_),
      ⟨_, rfl, .code .insert⟩, .absent⟩
    exact ⟨.absent, .absent, .absent, .absent, .value (fun h => nomatch h) rfl⟩
  have own : ∀ m ∈ ms, m.1 ≠ "payload" := by decide +kernel +zetaReduce
  have varies : Payload.Varies ms ms' := by
    refine .trans (@Payload.Varies.source [("op", .string "c")] _ _ _ (.unknown (by decide)))
      (.members (.null (by decide) ?_))
    decide +kernel +zetaReduce
  have shallow : (Json.object ms').nesting ≤ 126 := by decide +kernel +zetaReduce
  have others : ∀ m ∈ [("schema", Json.object [])] ++ [],
      m.1 ≠ "payload" ∧ m.2.nesting ≤ 126 := by
    decide +kernel
  obtain ⟨halone, hwrapped⟩ := ofBytes_of_isTold told own varies shallow "shop"
  exact ⟨⟨told, own, varies, shallow⟩,
    halone _ (Json.parseBytes_eq_ok_iff.1 (by cbv)).1,
    hwrapped _ _ _ others (Json.parseBytes_eq_ok_iff.1 (by cbv)).1⟩

end ChangeFeed
