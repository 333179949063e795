import CodeSurvey.Proofs.Assembly
import CodeSurvey.Proofs.SharedSections
import CodeSurvey.Settings.Document
import Mathlib.Data.List.Nodup

/-!
# Settings that are merged again

What a user gives is put over the defaults. A document is put over them when it is read, and what
comes of it once more when a surveyor is made of it. The second time changes nothing, not even the
order of keys, on which the categories of files depend.

- `Settings.WellKeyed`: settings in which no key stands twice.
- `putOver`: entries put over others; `keys_putOver` and `lookup?_putOver` say what comes of them.
- `mergeOver_mergeOver`: what has been put over settings is put over them without effect.
- `merge_settled`: the settings of a user over the defaults.
- `merge_of_ofDocument`: the settings of a document.
-/

namespace CodeSurvey

/-! ## Keys -/

/-- The keys of a mapping, in order. -/
def Value.keys (entries : List (String × Value)) : List String :=
  entries.map (·.1)

open Value (keys)

variable {base given : Settings} {key : String} {v : Value}

/-- Whether no key stands twice in a value, if that is a mapping. -/
def Value.DistinctKeys : Value → Prop
  | .map entries => (keys entries).Nodup
  | _ => True

instance : (v : Value) → Decidable v.DistinctKeys
  | .map entries => inferInstanceAs (Decidable (keys entries).Nodup)
  | .null | .bool _ | .number _ | .text _ | .list _ | .moment _ => .isTrue trivial

/-- Settings in which no key stands twice, neither among the sections nor in one of them. -/
structure Settings.WellKeyed (settings : Settings) : Prop where
  sections : (keys settings).Nodup
  entries : ∀ e ∈ settings, e.2.DistinctKeys

instance (settings : Settings) : Decidable settings.WellKeyed :=
  decidable_of_iff ((keys settings).Nodup ∧ ∀ e ∈ settings, e.2.DistinctKeys)
    ⟨fun h => ⟨h.1, h.2⟩, fun h => ⟨h.sections, h.entries⟩⟩

theorem lookup?_eq_none_iff : Value.lookup? key base = none ↔ key ∉ keys base := by
  rw [Value.lookup?, List.lookup_eq_none_iff, keys, List.mem_map]
  constructor
  · rintro hnone ⟨e, he, rfl⟩
    simpa using hnone e he
  · intro hnot e he
    exact bne_iff_ne.mpr fun heq => hnot ⟨e, he, heq.symm⟩

theorem mem_of_lookup? (h : Value.lookup? key base = some v) : (key, v) ∈ base := by
  rw [Value.lookup?, List.lookup_eq_some_iff] at h
  obtain ⟨front, back, rfl, -⟩ := h
  simp

theorem keys_put (key : String) (v : Value) (entries : Settings) :
    keys (Value.put key v entries) =
      if key ∈ keys entries then keys entries else keys entries ++ [key] := by
  induction entries with
  | nil => rfl
  | cons e rest ih =>
    rw [Value.put]
    by_cases hkey : e.1 = key
    · simp [keys, hkey]
    · rw [if_neg (by simpa using hkey)]
      show e.1 :: keys (Value.put key v rest) = _
      have hmem : key ∈ keys (e :: rest) ↔ key ∈ keys rest := by
        simp [keys, Ne.symm hkey]
      rw [ih, if_congr hmem rfl rfl]
      split <;> rfl

theorem nodup_keys_put (h : (keys base).Nodup) (key : String) (v : Value) :
    (keys (Value.put key v base)).Nodup := by
  rw [keys_put]
  split
  · exact h
  · rename_i hkey
    exact h.append (List.nodup_singleton key) (List.disjoint_singleton.mpr hkey)

theorem mem_put {e : String × Value} (h : e ∈ Value.put key v base) : e = (key, v) ∨ e ∈ base := by
  induction base with
  | nil => exact .inl (List.mem_singleton.mp h)
  | cons first rest ih =>
    rw [Value.put] at h
    split at h
    · rename_i hkey
      rw [List.mem_cons, eq_of_beq hkey] at h
      exact h.imp_right (List.mem_cons_of_mem _)
    · rcases List.mem_cons.mp h with rfl | h
      · exact .inr List.mem_cons_self
      · exact (ih h).imp_right (List.mem_cons_of_mem _)

theorem lookup?_put (key other : String) (v : Value) (entries : Settings) :
    Value.lookup? other (Value.put key v entries) =
      if other = key then some v else Value.lookup? other entries := by
  split
  · rename_i heq
    rw [heq, lookup?_put_self]
  · rename_i hne
    rw [lookup?_put_of_ne hne]

/-- Mappings are the same if they have the same keys in the same order and the same values under
them. -/
theorem eq_of_lookup? {entries entries' : Settings} (hnodup : (keys entries).Nodup)
    (hkeys : keys entries = keys entries')
    (hvalues : ∀ key, Value.lookup? key entries = Value.lookup? key entries') :
    entries = entries' := by
  induction entries generalizing entries' with
  | nil => exact (List.map_eq_nil_iff.mp hkeys.symm).symm
  | cons e rest ih =>
    obtain ⟨k, v⟩ := e
    cases entries' with
    | nil => contradiction
    | cons e' rest' =>
      obtain ⟨k', v'⟩ := e'
      obtain ⟨rfl, hrest⟩ : k = k' ∧ keys rest = keys rest' := List.cons.inj hkeys
      obtain ⟨hk, hnodup⟩ := List.nodup_cons.mp hnodup
      have hhere := hvalues k
      simp only [Value.lookup?, List.lookup_cons_self, Option.some.injEq] at hhere
      rw [hhere, ih hnodup hrest fun key => ?_]
      by_cases hkey : key = k
      · -- Behind its entry the key does not stand again.
        subst hkey
        rw [lookup?_eq_none_iff.mpr hk, lookup?_eq_none_iff.mpr (hrest ▸ hk)]
      · have hother := hvalues key
        have hne : (key == k) = false := by simpa using hkey
        simpa only [Value.lookup?, List.lookup_cons, hne] using hother

/-! ## Entries over others -/

/-- The entries of one mapping with those of another put over them in order; what is put may depend
on what stood in its place. -/
def putOver (joined : Option Value → Value → Value) (base given : Settings) : Settings :=
  given.foldl (fun acc e => Value.put e.1 (joined (Value.lookup? e.1 acc) e.2) acc) base

section

variable {joined : Option Value → Value → Value}

/-- The keys that were there come first, then the new ones, in the order in which they are given. -/
theorem keys_putOver (hgiven : (keys given).Nodup) : keys (putOver joined base given) =
    keys base ++ (keys given).filter (· ∉ keys base) := by
  induction given generalizing base with
  | nil => simp [putOver, keys]
  | cons e rest ih =>
    obtain ⟨hfirst, hrest⟩ := List.nodup_cons.mp hgiven
    have hcons : keys (e :: rest) = e.1 :: keys rest := rfl
    show keys (putOver joined (Value.put e.1 _ base) rest) = _
    rw [ih hrest, keys_put, hcons]
    by_cases hkey : e.1 ∈ keys base
    · -- A key that was there keeps its place.
      rw [if_pos hkey, List.filter_cons_of_neg (by simpa using hkey)]
    · rw [if_neg hkey, List.filter_cons_of_pos (by simpa using hkey), List.append_assoc,
        List.singleton_append]
      congr 2
      refine List.filter_congr fun other hother => ?_
      have hne : other ≠ e.1 := by
        rintro rfl
        exact hfirst hother
      simp [hne]

/-- Under a key that is given stands what is put there, and under any other what was there. -/
theorem lookup?_putOver (hgiven : (keys given).Nodup) (key : String) :
    Value.lookup? key (putOver joined base given) =
      match Value.lookup? key given with
      | some v => some (joined (Value.lookup? key base) v)
      | none => Value.lookup? key base := by
  induction given generalizing base with
  | nil => rfl
  | cons e rest ih =>
    obtain ⟨hfirst, hrest⟩ := List.nodup_cons.mp hgiven
    show Value.lookup? key (putOver joined (Value.put e.1 _ base) rest) = _
    rw [ih hrest, lookup?_put]
    by_cases hkey : key = e.1
    · -- The key is not given again, so what is put under it stays.
      have hnone := lookup?_eq_none_iff.mpr hfirst
      have hhere : Value.lookup? key (e :: rest) = some e.2 := by
        rw [hkey]
        exact List.lookup_cons_self
      rw [hhere, if_pos hkey, hkey, hnone]
    · have hne : (key == e.1) = false := by simpa using hkey
      have hbehind : Value.lookup? key (e :: rest) = Value.lookup? key rest := by
        rw [Value.lookup?, List.lookup_cons, hne]
        rfl
      rw [hbehind, if_neg hkey]

theorem nodup_keys_putOver (hbase : (keys base).Nodup) (given : Settings) :
    (keys (putOver joined base given)).Nodup := by
  induction given generalizing base with
  | nil => exact hbase
  | cons e rest ih => exact ih (nodup_keys_put hbase e.1 _)

/-- What stands in the end was there or has been put there. -/
theorem mem_putOver {e : String × Value} (h : e ∈ putOver joined base given) :
    e ∈ base ∨ ∃ there, ∃ e' ∈ given, e = (e'.1, joined there e'.2) := by
  induction given generalizing base with
  | nil => exact .inl h
  | cons first rest ih =>
    rcases ih h with hput | ⟨there, e', he', heq⟩
    · rcases mem_put hput with rfl | hbase
      · exact .inr ⟨_, first, List.mem_cons_self, rfl⟩
      · exact .inl hbase
    · exact .inr ⟨there, e', List.mem_cons_of_mem _ he', heq⟩

/-- Entries that have been put over others are put over them without effect, if that holds of every
value. -/
theorem putOver_putOver (hbase : (keys base).Nodup) (hgiven : (keys given).Nodup)
    (hkept : ∀ key v, Value.lookup? key base = some v → joined (some v) v = v)
    (hput : ∀ key v, Value.lookup? key given = some v →
      joined (Value.lookup? key base) (joined (Value.lookup? key base) v) =
        joined (Value.lookup? key base) v) :
    putOver joined base (putOver joined base given) = putOver joined base given := by
  have hagain : (keys (putOver joined base given)).Nodup := nodup_keys_putOver hbase given
  refine eq_of_lookup? (nodup_keys_putOver hbase _) ?_ fun key => ?_
  · -- The second time every key is there.
    rw [keys_putOver hagain, keys_putOver hgiven, List.filter_append, List.filter_filter]
    simp
  · rw [lookup?_putOver hagain, lookup?_putOver hgiven]
    cases hlookup : Value.lookup? key given with
    | some v => exact congrArg some (hput key v hlookup)
    | none =>
      cases hthere : Value.lookup? key base with
      | some v => exact congrArg some (hkept key v hthere)
      | none => rfl

end

/-! ## Settings over settings -/

/-- What becomes of a section when a user gives something for it. -/
def overSection (there : Option Value) (given : Value) : Value :=
  match given, there with
  | .map given, some (.map base) => .map (Value.putAll base given)
  | _, _ => given

theorem putAll_eq_putOver (base given : Settings) :
    Value.putAll base given = putOver (fun _ v => v) base given := rfl

theorem mergeOver_eq_putOver (defaults user : Settings) :
    mergeOver defaults user = putOver overSection defaults user := by
  have hsection (settings : Settings) (e : String × Value) : mergeSection settings e.1 e.2 =
      Value.put e.1 (overSection (Value.lookup? e.1 settings) e.2) settings := by
    unfold mergeSection overSection
    split <;> simp_all
  rw [mergeOver, putOver]
  simp only [hsection]

theorem putAll_putAll (hbase : (keys base).Nodup) (hgiven : (keys given).Nodup) :
    Value.putAll base (Value.putAll base given) = Value.putAll base given := by
  simp only [putAll_eq_putOver]
  exact putOver_putOver hbase hgiven (fun _ _ _ => rfl) fun _ _ _ => rfl

/-- A mapping that is put over itself stays as it is. -/
theorem putAll_self (hbase : (keys base).Nodup) : Value.putAll base base = base := by
  rw [putAll_eq_putOver]
  refine eq_of_lookup? (nodup_keys_putOver hbase _) ?_ fun key => ?_
  · rw [keys_putOver hbase]
    simp
  · rw [lookup?_putOver hbase]
    cases Value.lookup? key base <;> rfl

theorem Settings.WellKeyed.distinct {settings : Settings} (h : settings.WellKeyed)
    (hlookup : Value.lookup? key settings = some v) : v.DistinctKeys :=
  h.entries _ (mem_of_lookup? hlookup)

/-- **Again.** Settings over which a user's have been put keep what the user gave when that is put
over them once more. -/
theorem mergeOver_mergeOver {defaults user : Settings} (hdefaults : defaults.WellKeyed)
    (huser : user.WellKeyed) :
    mergeOver defaults (mergeOver defaults user) = mergeOver defaults user := by
  simp only [mergeOver_eq_putOver]
  refine putOver_putOver hdefaults.sections huser.sections (fun key v hthere => ?_)
    fun key v hgiven => ?_
  · cases v with
    | map base => exact congrArg Value.map (putAll_self (hdefaults.distinct hthere))
    | _ => rfl
  · cases v with
    | map given =>
      cases hthere : Value.lookup? key defaults with
      | none => rfl
      | some there =>
        cases there with
        | map base =>
          exact congrArg Value.map
            (putAll_putAll (hdefaults.distinct hthere) (huser.distinct hgiven))
        | _ => rfl
    | _ => rfl

theorem wellKeyed_defaultSettings : defaultSettings.WellKeyed := by
  decide +kernel

/-- **Merged settings.** The settings of a user over the defaults stay the same when they are put
over the defaults again. The sections of the defaults come first, in their order, and then the
other ones of the user. A section that is a mapping in the defaults and is given as a mapping holds
what is given under every key that is given, and the default under every other one, the default
keys first, in their order. Anything else that is given takes the place of the default, and what is
not given stays the default. -/
theorem merge_settled {user : Settings} (huser : user.WellKeyed) :
    merge (merge user) = merge user ∧
      keys (merge user) =
        keys defaultSettings ++ (keys user).filter (· ∉ keys defaultSettings) ∧
      (∀ key given base, Value.lookup? key user = some (.map given) →
        Value.lookup? key defaultSettings = some (.map base) →
        ∃ joined, Value.lookup? key (merge user) = some (.map joined) ∧
          keys joined = keys base ++ (keys given).filter (· ∉ keys base) ∧
          (∀ inner v, Value.lookup? inner given = some v → Value.lookup? inner joined = some v) ∧
          ∀ inner ∉ keys given, Value.lookup? inner joined = Value.lookup? inner base) ∧
      (∀ key v, Value.lookup? key user = some v →
        (∀ given base, v = .map given → Value.lookup? key defaultSettings ≠ some (.map base)) →
        Value.lookup? key (merge user) = some v) ∧
      ∀ key ∉ keys user, Value.lookup? key (merge user) = Value.lookup? key defaultSettings := by
  have hlookup (key : String) : Value.lookup? key (merge user) =
      match Value.lookup? key user with
      | some v => some (overSection (Value.lookup? key defaultSettings) v)
      | none => Value.lookup? key defaultSettings := by
    rw [merge, mergeOver_eq_putOver, lookup?_putOver huser.sections]
  refine ⟨mergeOver_mergeOver wellKeyed_defaultSettings huser, ?_, ?_, ?_, ?_⟩
  · rw [merge, mergeOver_eq_putOver, keys_putOver huser.sections]
  · intro key given base hgiven hthere
    have hkeys : (keys given).Nodup := huser.distinct hgiven
    refine ⟨Value.putAll base given, ?_, ?_, fun inner v hinner => ?_, fun inner hinner => ?_⟩
    · rw [hlookup, hgiven, hthere]
      rfl
    · rw [putAll_eq_putOver, keys_putOver hkeys]
    · rw [putAll_eq_putOver, lookup?_putOver hkeys, hinner]
    · rw [putAll_eq_putOver, lookup?_putOver hkeys, lookup?_eq_none_iff.mpr hinner]
  · intro key v hgiven hother
    have hnew : overSection (Value.lookup? key defaultSettings) v = v := by
      unfold overSection
      split
      · rename_i given base hthere
        exact absurd hthere (hother given base rfl)
      · rfl
    rw [hlookup, hgiven]
    exact congrArg some hnew
  · intro key hkey
    rw [hlookup, lookup?_eq_none_iff.mpr hkey]

/-- Settings of a user in which a section of the defaults is given as a mapping, one as something
else and a value as a mapping, with a section that the defaults do not have. -/
def mixedSettings : Settings := [
  ("stats", .map [("shown", .bool true), ("top_n", .int 3)]),
  ("notes", .map [("author", .null)]),
  ("workers", .map [("top_n", .int 2)]),
  ("auth", .null)]

/-- The default key of "stats" comes first, with the number that is given for it. "auth" is replaced
as a whole, and "env" stays. -/
theorem merge_settled_mixed :
    mixedSettings.WellKeyed ∧ merge (merge mixedSettings) = merge mixedSettings ∧
      keys (merge mixedSettings) = keys defaultSettings ++ ["notes"] ∧
      (∃ joined, Value.lookup? "stats" (merge mixedSettings) = some (.map joined) ∧
        keys joined = ["top_n", "shown"] ∧ Value.lookup? "top_n" joined = some (.int 3)) ∧
      Value.lookup? "auth" (merge mixedSettings) = some .null ∧
      Value.lookup? "env" (merge mixedSettings) = Value.lookup? "env" defaultSettings := by
  have hkeyed : mixedSettings.WellKeyed := by decide +kernel
  obtain ⟨hagain, hkeys, hjoined, hreplaced, hkept⟩ := merge_settled hkeyed
  obtain ⟨joined, hstats, hinner, hvalues, -⟩ := hjoined "stats" _ _ rfl rfl
  refine ⟨hkeyed, hagain, hkeys, ⟨joined, hstats, hinner, hvalues "top_n" _ rfl⟩, ?_, ?_⟩
  · exact hreplaced "auth" .null rfl fun _ _ hmap => nomatch hmap
  · exact hkept "env" (by decide)

/-! ## Settings of surveyors and documents -/

/-- A surveyor does not tell whether the settings of a user have been merged before. -/
theorem Survey.Surveyor.ofSettings_merge {user : Settings} (huser : user.WellKeyed)
    (workers : Option Int) : ofSettings (merge user) workers = ofSettings user workers := by
  have hagain : merge (merge user) = merge user :=
    mergeOver_mergeOver wellKeyed_defaultSettings huser
  rw [ofSettings, ofSettings, hagain]

namespace Format.Yaml

open Survey (bind_eq_ok)

/-- A scalar is no mapping. -/
theorem scalarValue_ne_map {tag : Tag} {text : List Char} {entries : Settings} :
    scalarValue tag text ≠ .ok (.map entries) := by
  have hmap {α : Type} {result : Except ReadError α} {f : α → Value}
      (h : result.map f = .ok (.map entries)) : ∃ a, f a = .map entries := by
    cases result with
    | error e => contradiction
    | ok a => exact ⟨a, Except.ok.inj h⟩
  intro h
  unfold scalarValue at h
  dsimp only at h
  split at h
  · simp at h
  · simp at h
  · split at h <;> simp at h
  · split at h
    · obtain ⟨n, hn⟩ := hmap h
      simp [Value.int] at hn
    · contradiction
  · split at h <;> simp at h
  · split at h
    · obtain ⟨m, hm⟩ := hmap h
      simp at hm
    · contradiction
  · contradiction

/-- A mapping that is read keeps the last of several entries with one key. -/
theorem distinctKeys_valueOf {n : Node} (h : valueOf n = .ok v) : v.DistinctKeys := by
  cases n with
  | scalar tag text =>
    rw [valueOf] at h
    cases v with
    | map entries => exact absurd h scalarValue_ne_map
    | _ => trivial
  | sequence tag items =>
    rw [valueOf, bind_eq_ok] at h
    obtain ⟨xs, -, h⟩ := h
    split at h
    · obtain rfl := Except.ok.inj h
      trivial
    · contradiction
  | mapping tag entries =>
    rw [valueOf, bind_eq_ok] at h
    obtain ⟨⟨taken, own⟩, -, h⟩ := h
    dsimp only at h
    split at h
    · obtain rfl := Except.ok.inj h
      have hnone : (keys []).Nodup := List.nodup_nil
      show (keys (Value.putAll [] (taken ++ own))).Nodup
      rw [putAll_eq_putOver]
      exact nodup_keys_putOver hnone (taken ++ own)
    · contradiction

mutual

/-- The entries of a mapping, those that it takes over included, have values that are read. -/
theorem distinctKeys_entriesOf : ∀ {entries : List (Node × Node)} {taken own : Settings},
    entriesOf entries = .ok (taken, own) → ∀ e ∈ taken ++ own, e.2.DistinctKeys
  | [], taken, own, h, e, he => by
    rw [entriesOf] at h
    obtain ⟨rfl, rfl⟩ := Prod.mk.inj (Except.ok.inj h)
    contradiction
  | (k, v) :: rest, taken, own, h, e, he => by
    rw [entriesOf] at h
    split at h
    · obtain ⟨here, hhere, h⟩ := bind_eq_ok.mp h
      obtain ⟨⟨behind, others⟩, hrest, h⟩ := bind_eq_ok.mp h
      obtain ⟨rfl, rfl⟩ := Prod.mk.inj (Except.ok.inj h)
      rw [List.append_assoc, List.mem_append] at he
      rcases he with he | he
      · exact distinctKeys_takenFrom hhere e he
      · exact distinctKeys_entriesOf hrest e he
    · obtain ⟨key, -, h⟩ := bind_eq_ok.mp h
      obtain ⟨value, hvalue, h⟩ := bind_eq_ok.mp h
      obtain ⟨⟨behind, others⟩, hrest, h⟩ := bind_eq_ok.mp h
      obtain ⟨rfl, rfl⟩ := Prod.mk.inj (Except.ok.inj h)
      rw [List.mem_append, List.mem_cons, or_left_comm] at he
      rcases he with rfl | he
      · exact distinctKeys_valueOf hvalue
      · exact distinctKeys_entriesOf hrest e (List.mem_append.mpr he)

theorem distinctKeys_takenFrom : ∀ {n : Node} {taken : Settings},
    takenFrom n = .ok taken → ∀ e ∈ taken, e.2.DistinctKeys
  | .mapping tag entries, taken, h, e, he => by
    rw [takenFrom] at h
    obtain ⟨⟨behind, others⟩, hentries, h⟩ := bind_eq_ok.mp h
    obtain rfl := Except.ok.inj h
    exact distinctKeys_entriesOf hentries e he
  | .sequence tag items, taken, h, e, he => by
    rw [takenFrom] at h
    exact distinctKeys_takenFromAll h e he
  | .scalar tag text, taken, h, e, he => by
    rw [takenFrom] at h
    contradiction

theorem distinctKeys_takenFromAll : ∀ {items : List Node} {taken : Settings},
    takenFromAll items = .ok taken → ∀ e ∈ taken, e.2.DistinctKeys
  | [], taken, h, e, he => by
    rw [takenFromAll] at h
    obtain rfl := Except.ok.inj h
    contradiction
  | .mapping tag entries :: rest, taken, h, e, he => by
    rw [takenFromAll] at h
    obtain ⟨⟨behind, others⟩, hentries, h⟩ := bind_eq_ok.mp h
    obtain ⟨later, hlater, h⟩ := bind_eq_ok.mp h
    obtain rfl := Except.ok.inj h
    rw [List.append_assoc, List.mem_append] at he
    rcases he with he | he
    · exact distinctKeys_takenFromAll hlater e he
    · exact distinctKeys_entriesOf hentries e he
  | .scalar tag text :: rest, taken, h, e, he => by simp [takenFromAll] at h
  | .sequence tag items :: rest, taken, h, e, he => by simp [takenFromAll] at h

end

/-- In a mapping that is read no key stands twice, nor in a mapping under one of its keys. -/
theorem wellKeyed_of_valueOf {n : Node} {entries : Settings} (h : valueOf n = .ok (.map entries)) :
    Settings.WellKeyed entries where
  sections := distinctKeys_valueOf h
  entries := by
    cases n with
    | scalar tag text =>
      rw [valueOf] at h
      exact absurd h scalarValue_ne_map
    | sequence tag items =>
      rw [valueOf, bind_eq_ok] at h
      obtain ⟨xs, -, h⟩ := h
      split at h <;> simp [pure, Except.pure] at h
    | mapping tag written =>
      rw [valueOf, bind_eq_ok] at h
      obtain ⟨⟨taken, own⟩, hentries, h⟩ := h
      dsimp only at h
      split at h
      · obtain rfl := Value.map.inj (Except.ok.inj h)
        intro e he
        rw [putAll_eq_putOver] at he
        rcases mem_putOver he with hnone | ⟨there, e', he', rfl⟩
        · contradiction
        · exact distinctKeys_entriesOf hentries e' he'
      · contradiction

theorem wellKeyed_of_read {text : List Char} {entries : Settings}
    (h : read text = .ok (.map entries)) : Settings.WellKeyed entries := by
  unfold read at h
  split at h
  · exact wellKeyed_of_valueOf h
  · exact nomatch Except.ok.inj h
  · contradiction

end Format.Yaml

/-- **Documents.** The settings that a document describes stay the same when they are merged again,
as a surveyor does that is made of them. -/
theorem merge_of_ofDocument {path : String} {text : List Char} {settings : Settings}
    (h : Settings.ofDocument path text = .ok settings) : merge settings = settings := by
  have hagain {user : Settings} (huser : user.WellKeyed) : merge (merge user) = merge user :=
    mergeOver_mergeOver wellKeyed_defaultSettings huser
  rw [Settings.ofDocument, Survey.bind_eq_ok] at h
  obtain ⟨v, hread, h⟩ := h
  split at h
  · obtain rfl := Except.ok.inj h
    exact hagain (by decide)
  · split at h
    · rename_i entries
      obtain rfl := Except.ok.inj h
      apply hagain
      cases hdocument : Format.Yaml.read text with
      | error e =>
        rw [hdocument] at hread
        contradiction
      | ok v =>
        rw [hdocument] at hread
        obtain rfl := Except.ok.inj hread
        exact Format.Yaml.wellKeyed_of_read hdocument
    · contradiction

end CodeSurvey
