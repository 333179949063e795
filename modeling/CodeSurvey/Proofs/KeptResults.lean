import CodeSurvey.Survey.FileSurvey

/-!
# The table of kept results

Kinds are worked out through a table: what was found is kept, and kinds that are put together from
others ask for them through the same table. This module says what such a run answers without the
table.

- `Extractors.entitiesWithout`: the entities of a file when some kinds are taken to be empty.
- `Context.failure?`: why the entities of a kind cannot be worked out, judged from the file alone.
- `Context.Consistent.answers`: a request answers with the former or fails with the latter, whatever
  the table holds so far, as long as it holds nothing wrong.
-/

namespace CodeSurvey

/-- No kind is left out. -/
theorem Kind.mem_all (k : Kind) : k ∈ Kind.all := by
  cases k <;> decide

/-- The kinds that a kind is put together from. -/
def Kind.reads : Kind → List Kind
  | .services => [.functions, .classes]
  | .controllers => [.routes, .functions, .classes]
  | .utilities => [.functions]
  | .models => [.classes]
  | .components => [.interfaces, .types]
  | _ => []

/-- Whether the entities of a kind keep code of their own. -/
def Kind.keepsCode : Kind → Bool
  | .services | .controllers | .utilities | .models => false
  | _ => true

/-- What a kind reads is put together from nothing else. -/
theorem Kind.reads_of_mem_reads {j k : Kind} (h : j ∈ k.reads) : j.reads = [] := by
  cases k <;> simp [Kind.reads] at h <;> rcases h with rfl | rfl | rfl <;> rfl

namespace Extract

/-! ## Entities without the table -/

/-- The entities of a kind in a file to which it applies, given those of the kinds that it reads. -/
def Extractors.found (x : Extractors) (v : View) (given : Entities) : (k : Kind) → List k.Entity
  | .functions => functions x.limits v
  | .classes => classes x.limits v
  | .interfaces => interfaces x.limits v
  | .types => aliases x.limits v
  | .routes => routes x.limits x.auth v
  | .services => services v (given .functions) (given .classes)
  | .controllers => controllers v (given .routes) (given .functions) (given .classes)
  | .middlewares => middlewares x.limits v
  | .utilities => utilities v (given .functions)
  | .models =>
    if v.info.language == "prisma" then schemaModels x.limits v
    else (given .classes).map (classModel v)
  | .hooks => hooks x.limits v
  | .components => components x.limits ⟨given .interfaces, given .types⟩ v

/-- Only the kinds that a kind reads matter for it. -/
theorem Extractors.found_congr (x : Extractors) (v : View) {given given' : Entities} {k : Kind}
    (h : ∀ j ∈ k.reads, given j = given' j) : x.found v given k = x.found v given' k := by
  cases k <;> simp_all [Kind.reads, Extractors.found]

/-- The entities of a file when the kinds in `gone` are taken to be empty. What is read by another
kind reads nothing itself, so two rounds are enough. -/
def Extractors.entitiesWithout (x : Extractors) (v : View) (gone : Kind → Bool) : Entities :=
  let round (given : Entities) : Entities := fun k =>
    if gone k || !x.appliesTo v k then [] else x.found v given k
  round (round Entities.none)

/-- The entities that are left solve the equation that says how each kind is put together. -/
theorem Extractors.entitiesWithout_eq (x : Extractors) (v : View) (gone : Kind → Bool) (k : Kind) :
    x.entitiesWithout v gone k =
      if gone k || !x.appliesTo v k then []
      else x.found v (x.entitiesWithout v gone) k := by
  unfold Extractors.entitiesWithout
  dsimp only
  split
  · rfl
  · refine x.found_congr v fun j hj => ?_
    split
    · rfl
    · exact x.found_congr v fun i hi => by simp [Kind.reads_of_mem_reads hj] at hi

/-- A kind that is not gone and reads no kind that is gone is as if none were gone. -/
theorem Extractors.entitiesWithout_undisturbed (x : Extractors) (v : View) {gone gone' : Kind → Bool}
    {k : Kind} (hk : gone k = gone' k) (hreads : ∀ j ∈ k.reads, gone j = gone' j) :
    x.entitiesWithout v gone k = x.entitiesWithout v gone' k := by
  have base : ∀ j ∈ k.reads, x.entitiesWithout v gone j = x.entitiesWithout v gone' j := by
    intro j hj
    rw [x.entitiesWithout_eq v gone, x.entitiesWithout_eq v gone', hreads j hj]
    split
    · rfl
    · exact x.found_congr v fun i hi => by simp [Kind.reads_of_mem_reads hj] at hi
  rw [x.entitiesWithout_eq v gone, x.entitiesWithout_eq v gone', hk, x.found_congr v base]

/-- Whether a file has components does not depend on the types in which props are looked up. -/
theorem isEmpty_components (limits : Limits) (types types' : DeclaredTypes) (v : View) :
    (components limits types v).isEmpty = (components limits types' v).isEmpty := by
  simp [components]

/-! ## Failures -/

/-- Why the code of entities cannot be kept: there are some, and the settings hold no limits. -/
def Extractors.unkept? (x : Extractors) (v : View) (k : Kind) : Option Failure :=
  match x.limits.code with
  | .ok _ => none
  | .error e =>
    if k.keepsCode && !(x.found v Entities.none k).isEmpty then some (.settings e) else none

/-- Why the entities of a kind cannot be worked out. -/
def Context.failure? (c : Context) (k : Kind) : Option Failure :=
  if c.extractors.appliesTo c.view k then
    match c.faults.lookup k.name with
    | some message => some (.broken message)
    | none => c.extractors.unkept? c.view k
  else none

/-- Whether the entities of a kind cannot be worked out. -/
def Context.fails (c : Context) (k : Kind) : Bool :=
  (c.failure? k).isSome

/-- Without faults no more kinds fail than with them. -/
theorem Context.failure?_without_faults {c : Context} {k : Kind} (h : c.failure? k = none) :
    ({ c with faults := [] } : Context).failure? k = none := by
  unfold Context.failure? at h ⊢
  split at h
  · rename_i happlies
    rw [if_pos happlies]
    split at h
    · contradiction
    · exact h
  · rename_i happlies
    exact if_neg happlies

/-! ## Answers of steps -/

/-- What a step answers when it starts with a table, and the table after it. -/
def Step.answer (s : Step α) (kept : Kept) : Except Failure α × Kept :=
  (ExceptT.run s).run kept

@[simp] theorem Step.answer_pure (a : α) (kept : Kept) :
    (pure a : Step α).answer kept = (.ok a, kept) := rfl

theorem Step.answer_bind (s : Step α) (f : α → Step β) (kept : Kept) :
    (s >>= f).answer kept = match s.answer kept with
      | (.ok a, after) => (f a).answer after
      | (.error e, after) => (.error e, after) := by
  simp only [Step.answer, ExceptT.run_bind, StateT.run_bind]
  rcases h : StateT.run (ExceptT.run s) kept with ⟨_ | _, _⟩ <;> rfl

/-- A step whose first half answers goes on with its second half. -/
theorem Step.answer_bind_ok {s : Step α} {f : α → Step β} {kept after : Kept} {a : α}
    (h : s.answer kept = (.ok a, after)) : (s >>= f).answer kept = (f a).answer after := by
  rw [Step.answer_bind, h]

theorem Context.answer_keepingCode (c : Context) (entities : List α) (kept : Kept) :
    (c.keepingCode entities).answer kept = match c.extractors.limits.code with
      | .ok _ => (.ok entities, kept)
      | .error e =>
        if entities.isEmpty then (.ok entities, kept) else (.error (.settings e), kept) := by
  unfold Context.keepingCode
  cases c.extractors.limits.code <;> cases entities <;> rfl

/-- A kind that is known is not worked out again; one that does not apply is empty; a fault is told
before anything is sought. -/
theorem Context.answer_once (c : Context) (k : Kind) (find : Step (List k.Entity)) (kept : Kept) :
    (c.once k find).answer kept = match kept k with
      | some entities => (.ok entities, kept)
      | none =>
        if c.extractors.appliesTo c.view k then
          match c.faults.lookup k.name with
          | some message => (.error (.broken message), kept)
          | none => match find.answer kept with
            | (.ok entities, after) => (.ok entities, after.put k entities)
            | (.error e, after) => (.error e, after)
        else (.ok [], kept.put k []) := by
  unfold Context.once
  rw [Step.answer_bind]
  change Step.answer (match kept k with | some entities => _ | none => _) kept = _
  cases kept k with
  | some entities => rfl
  | none =>
    by_cases happlies : c.extractors.appliesTo c.view k
    · simp only [happlies, if_true]
      cases c.faults.lookup k.name with
      | some message => rfl
      | none =>
        simp only [Step.answer_bind]
        rcases find.answer kept with ⟨_ | _, _⟩ <;> rfl
    · simp only [happlies]
      rfl

/-! ## What the table holds -/

@[simp] theorem Kept.put_self (kept : Kept) (k : Kind) (entities : List k.Entity) :
    kept.put k entities k = some entities := by
  simp [Kept.put]

theorem Kept.put_of_ne (kept : Kept) {k j : Kind} (entities : List k.Entity) (h : k ≠ j) :
    kept.put k entities j = kept j := by
  simp [Kept.put, h]

/-- Whatever is known of a kind is right. -/
def Kept.Holds (kept : Kept) (values : Entities) : Prop :=
  ∀ k entities, kept k = some entities → entities = values k

theorem Kept.Holds.put {kept : Kept} {values : Entities} (h : kept.Holds values) (k : Kind) :
    (kept.put k (values k)).Holds values := by
  intro j entities hj
  by_cases hkj : k = j
  · subst hkj
    rw [Kept.put_self] at hj
    exact (Option.some.inj hj).symm
  · rw [Kept.put_of_ne kept _ hkj] at hj
    exact h j entities hj

/-- The entities that the table of a file settles down to when the kinds in `gone` are empty. -/
def Context.left (c : Context) (gone : Kind → Bool) : Entities :=
  c.extractors.entitiesWithout c.view gone

/-- The table of a file holds nothing wrong when the kinds in `gone` are taken to be empty: these
are the kinds that fail and others that are known to be empty already. -/
structure Context.Consistent (c : Context) (gone : Kind → Bool) (kept : Kept) : Prop where
  holds : kept.Holds (c.left gone)
  gone_of_fails : ∀ k, c.fails k = true → gone k = true
  known_or_fails : ∀ k, gone k = true → (kept k).isSome = true ∨ c.fails k = true

/-- A later table of the same file: still right, with nothing forgotten, and with nothing new about
kinds that fail. -/
structure Context.Advances (c : Context) (gone : Kind → Bool) (before after : Kept) : Prop where
  holds : after.Holds (c.left gone)
  known : ∀ k, (before k).isSome = true → (after k).isSome = true
  failing : ∀ k, c.fails k = true → after k = before k

variable {c : Context} {gone : Kind → Bool} {kept : Kept}

theorem Context.Consistent.refl (h : c.Consistent gone kept) : c.Advances gone kept kept :=
  ⟨h.holds, fun _ hk => hk, fun _ _ => rfl⟩

theorem Context.Advances.trans {first second third : Kept} (h : c.Advances gone first second)
    (h' : c.Advances gone second third) : c.Advances gone first third :=
  ⟨h'.holds, fun k hk => h'.known k (h.known k hk),
    fun k hk => (h'.failing k hk).trans (h.failing k hk)⟩

theorem Context.Consistent.advance {after : Kept} (h : c.Consistent gone kept)
    (ha : c.Advances gone kept after) : c.Consistent gone after :=
  ⟨ha.holds, h.gone_of_fails, fun k hk => (h.known_or_fails k hk).imp_left (ha.known k)⟩

/-- A kind that does not fail may be put into the table. -/
theorem Context.Advances.put {before after : Kept} {k : Kind} (h : c.Advances gone before after)
    (hk : c.fails k = false) : c.Advances gone before (after.put k (c.left gone k)) where
  holds := h.holds.put k
  known j hj := by
    by_cases hkj : k = j
    · subst hkj
      rw [Kept.put_self, Option.isSome_some]
    · rw [Kept.put_of_ne after _ hkj]
      exact h.known j hj
  failing j hj := by
    have hkj : k ≠ j := by
      rintro rfl
      rw [hk] at hj
      contradiction
    rw [Kept.put_of_ne after _ hkj]
    exact h.failing j hj

/-! ## Requests -/

/-- What a request for a kind has to answer: the entities, unless the kind fails and nothing is known
of it yet. -/
def Context.due (c : Context) (gone : Kind → Bool) (kept : Kept) (k : Kind) :
    Except Failure (List k.Entity) :=
  match kept k, c.failure? k with
  | none, some e => .error e
  | _, _ => .ok (c.left gone k)

/-- A search answers with a value and leaves a later table. -/
def Context.Finds (c : Context) (gone : Kind → Bool) (kept : Kept) (search : Step β) (value : β) :
    Prop :=
  ∃ after, c.Advances gone kept after ∧ search.answer kept = (.ok value, after)

/-- A request answers what is due and leaves a later table, which knows the kind if it answered. -/
def Context.Answers (c : Context) (gone : Kind → Bool) (kept : Kept) (k : Kind)
    (request : Step (List k.Entity)) : Prop :=
  ∃ after, request.answer kept = (c.due gone kept k, after) ∧ c.Advances gone kept after ∧
    ∀ entities, c.due gone kept k = .ok entities → (after k).isSome = true

/-- The entities of a kind that neither fails nor is known are those that are found. -/
theorem Context.Consistent.left_eq_found (h : c.Consistent gone kept) {k : Kind}
    (hk : kept k = none) (happlies : c.extractors.appliesTo c.view k = true)
    (hfails : c.fails k = false) :
    c.left gone k = c.extractors.found c.view (c.left gone) k := by
  have hgone : gone k = false := by
    cases hgone : gone k with
    | false => rfl
    | true =>
      rcases h.known_or_fails k hgone with hknown | hf
      · simp [hk] at hknown
      · simp [hfails] at hf
  unfold Context.left
  rw [Extractors.entitiesWithout_eq, hgone, happlies]
  rfl

/-- What the table does around a search is the same for every kind: it is enough that the search
finds the entities, or fails if their code cannot be kept. -/
theorem Context.Consistent.answers_once (h : c.Consistent gone kept) {k : Kind}
    {find : Step (List k.Entity)}
    (hfind : kept k = none → c.extractors.appliesTo c.view k = true →
      match c.extractors.unkept? c.view k with
      | some e => find.answer kept = (.error e, kept)
      | none => c.fails k = false →
          c.Finds gone kept find (c.extractors.found c.view (c.left gone) k)) :
    c.Answers gone kept k (c.once k find) := by
  -- The cases are those of `Context.answer_once`, in their order; only where the kind is neither
  -- known nor left out nor faulty does the search run, and the table gets an entry it found.
  unfold Context.Answers Context.due
  rw [Context.answer_once]
  cases hk : kept k with
  | some entities =>
    refine ⟨kept, ?_, h.refl, by simp [hk]⟩
    rw [h.holds k entities hk]
  | none =>
    by_cases happlies : c.extractors.appliesTo c.view k
    · have hfailure : c.failure? k = match c.faults.lookup k.name with
          | some message => some (.broken message)
          | none => c.extractors.unkept? c.view k := if_pos happlies
      have hfind := hfind hk happlies
      simp only [happlies, if_true]
      cases hfault : c.faults.lookup k.name with
      | some message =>
        simp only [hfault] at hfailure
        exact ⟨kept, by rw [hfailure], h.refl, by simp [hfailure]⟩
      | none =>
        simp only [hfault] at hfailure
        cases hunkept : c.extractors.unkept? c.view k with
        | some e =>
          rw [hunkept] at hfind hfailure
          simp only at hfind
          exact ⟨kept, by rw [hfind, hfailure], h.refl, by simp [hfailure]⟩
        | none =>
          rw [hunkept] at hfind hfailure
          have hfails : c.fails k = false := by simp [Context.fails, hfailure]
          obtain ⟨after, hadvances, hanswer⟩ := hfind hfails
          rw [← h.left_eq_found hk happlies hfails] at hanswer
          refine ⟨after.put k (c.left gone k), by rw [hanswer, hfailure], hadvances.put hfails, ?_⟩
          simp
    · -- A kind that does not apply cannot fail, and is empty whatever is gone.
      have hfailure : c.failure? k = none := if_neg happlies
      have hfails : c.fails k = false := by simp [Context.fails, hfailure]
      have hleft : c.left gone k = [] := by
        unfold Context.left
        rw [Extractors.entitiesWithout_eq]
        simp [happlies]
      refine ⟨kept.put k (c.left gone k), ?_, h.refl.put hfails, by simp⟩
      simp [happlies, hfailure, hleft]

/-- A kind that keeps code and reads no other kind. -/
theorem Context.Consistent.answers_keepingCode (h : c.Consistent gone kept) {k : Kind}
    {entities : List k.Entity} (hcode : k.keepsCode = true)
    (hfound : ∀ given, c.extractors.found c.view given k = entities) :
    c.Answers gone kept k (c.once k (c.keepingCode entities)) := by
  refine h.answers_once fun _ _ => ?_
  simp only [Extractors.unkept?, Context.Finds, Context.answer_keepingCode, hcode, hfound]
  cases c.extractors.limits.code with
  | ok caps => exact fun _ => ⟨kept, h.refl, rfl⟩
  | error e => cases entities <;> simp [h.refl]

/-- A request for a kind that is known or does not fail answers its entities. -/
theorem Context.Answers.eq_left {k : Kind} {request : Step (List k.Entity)}
    (h : c.Answers gone kept k request) (hk : (kept k).isSome = true ∨ c.fails k = false) :
    c.Finds gone kept request (c.left gone k) := by
  obtain ⟨after, hanswer, hadvances, -⟩ := h
  refine ⟨after, hadvances, hanswer.trans ?_⟩
  unfold Context.due
  rcases hk with hk | hk
  · obtain ⟨entities, hk⟩ := Option.isSome_iff_exists.mp hk
    rw [hk]
  · have hfailure : c.failure? k = none := by simpa [Context.fails] using hk
    rw [hfailure]
    cases kept k <;> rfl

/-- The kinds that read no other kind. -/
theorem Context.Consistent.answers_base (h : c.Consistent gone kept) {k : Kind}
    (hcode : k.keepsCode = true) (hreads : k.reads = []) :
    c.Answers gone kept k (c.results k) := by
  cases k with
  | services | controllers | utilities | models => simp [Kind.keepsCode] at hcode
  | components => simp [Kind.reads] at hreads
  | functions | classes | interfaces | types | routes | middlewares | hooks =>
    exact h.answers_keepingCode rfl fun _ => rfl

/-- With a table that holds nothing wrong, the kinds that a kind reads can be asked for: each of them
is known or does not fail. -/
structure Context.Ready (c : Context) (gone : Kind → Bool) (k : Kind) (kept : Kept) : Prop where
  consistent : c.Consistent gone kept
  reads : ∀ j ∈ k.reads, (kept j).isSome = true ∨ c.fails j = false

variable {k : Kind}

theorem Context.Ready.advance {after : Kept} (h : c.Ready gone k kept)
    (ha : c.Advances gone kept after) : c.Ready gone k after :=
  ⟨h.consistent.advance ha, fun j hj => (h.reads j hj).imp_left (ha.known j)⟩

theorem Context.Ready.finds_pure (h : c.Ready gone k kept) (value : β) :
    c.Finds gone kept (pure value) value :=
  ⟨kept, h.consistent.refl, rfl⟩

/-- A search that first asks for a kind that it reads goes on with the entities of that kind. -/
theorem Context.Ready.read_then (h : c.Ready gone k kept) {j : Kind} (hj : j ∈ k.reads)
    {f : List j.Entity → Step β} {value : β}
    (hf : ∀ first, c.Ready gone k first → c.Finds gone first (f (c.left gone j)) value) :
    c.Finds gone kept (c.results j >>= f) value := by
  have hcode : j.keepsCode = true := by
    cases k <;> simp [Kind.reads] at hj <;> rcases hj with rfl | rfl | rfl <;> rfl
  obtain ⟨first, hfirst, hread⟩ :=
    (h.consistent.answers_base hcode (Kind.reads_of_mem_reads hj)).eq_left (h.reads j hj)
  obtain ⟨last, hlast, hrest⟩ := hf first (h.advance hfirst)
  exact ⟨last, hfirst.trans hlast, (Step.answer_bind_ok hread).trans hrest⟩

/-- A kind without code of its own fails only by a fault, so it is enough that the search answers. -/
theorem Context.Ready.answers_composed (h : c.Ready gone k kept) {find : Step (List k.Entity)}
    (hcode : k.keepsCode = false)
    (hfind : c.Finds gone kept find (c.extractors.found c.view (c.left gone) k)) :
    c.Answers gone kept k (c.once k find) := by
  refine h.consistent.answers_once fun _ _ => ?_
  have hunkept : c.extractors.unkept? c.view k = none := by
    unfold Extractors.unkept?
    cases c.extractors.limits.code <;> simp [hcode]
  rw [hunkept]
  exact fun _ => hfind

/-- Components keep their own code before the types of their props are looked up. -/
theorem Context.Ready.answers_components (h : c.Ready gone .components kept) :
    c.Answers gone kept .components c.components := by
  refine h.consistent.answers_once fun _ _ => ?_
  -- The search looks for components without any types of props first: whether there are some, and
  -- so whether code has to be kept, is already told by these.
  have hisEmpty (given : Entities) : (c.extractors.found c.view given .components).isEmpty =
      (Extract.components c.extractors.limits ⟨[], []⟩ c.view).isEmpty := isEmpty_components ..
  cases hempty : (Extract.components c.extractors.limits ⟨[], []⟩ c.view).isEmpty with
  | true =>
    have hfound := List.isEmpty_iff.mp ((hisEmpty (c.left gone)).trans hempty)
    have hunkept : c.extractors.unkept? c.view .components = none := by
      unfold Extractors.unkept?
      rw [hisEmpty, hempty]
      cases c.extractors.limits.code <;> rfl
    rw [hunkept, hfound]
    exact fun _ => ⟨kept, h.consistent.refl, by simp [List.isEmpty_iff.mp hempty]⟩
  | false =>
    simp only [hempty, Bool.false_eq_true, if_false]
    have hkeep :=
      c.answer_keepingCode (Extract.components c.extractors.limits ⟨[], []⟩ c.view) kept
    cases hcode : c.extractors.limits.code with
    | error e =>
      have hunkept : c.extractors.unkept? c.view .components = some (.settings e) := by
        unfold Extractors.unkept?
        rw [hcode]
        simp only [hisEmpty, hempty]
        rfl
      rw [hcode, hempty] at hkeep
      rw [hunkept]
      simp only
      rw [Step.answer_bind, hkeep]
      rfl
    | ok caps =>
      have hunkept : c.extractors.unkept? c.view .components = none := by
        unfold Extractors.unkept?
        rw [hcode]
      rw [hcode] at hkeep
      rw [hunkept]
      intro _
      rw [Context.Finds, Step.answer_bind_ok hkeep]
      refine h.read_then (j := .interfaces) (by decide) fun _ h => ?_
      exact h.read_then (j := .types) (by decide) fun _ h => h.finds_pure _

/-- **Requests.** With a table that holds nothing wrong, a request for a kind answers its entities,
or fails if the kind does and is not known to be empty. The kinds that it reads have to be known or
not to fail. -/
theorem Context.Consistent.answers (h : c.Consistent gone kept) (k : Kind)
    (hreads : ∀ j ∈ k.reads, (kept j).isSome = true ∨ c.fails j = false) :
    c.Answers gone kept k (c.results k) := by
  have hready : c.Ready gone k kept := ⟨h, hreads⟩
  cases k with
  | functions | classes | interfaces | types | routes | middlewares | hooks =>
    exact h.answers_base rfl rfl
  | components => exact hready.answers_components
  | services =>
    refine hready.answers_composed rfl ?_
    refine hready.read_then (j := .functions) (by decide) fun _ h => ?_
    exact h.read_then (j := .classes) (by decide) fun _ h => h.finds_pure _
  | controllers =>
    refine hready.answers_composed rfl ?_
    refine hready.read_then (j := .routes) (by decide) fun _ h => ?_
    refine h.read_then (j := .functions) (by decide) fun _ h => ?_
    exact h.read_then (j := .classes) (by decide) fun _ h => h.finds_pure _
  | utilities =>
    refine hready.answers_composed rfl ?_
    exact hready.read_then (j := .functions) (by decide) fun _ h => h.finds_pure _
  | models =>
    refine hready.answers_composed rfl ?_
    -- Models of a schema are read off the schema, those of other files come from its classes.
    by_cases hschema : c.view.info.language == "prisma"
    · simp only [hschema, Extractors.found]
      exact hready.finds_pure _
    · simp only [hschema, Extractors.found]
      exact hready.read_then (j := .classes) (by decide) fun _ h => h.finds_pure _

end Extract

end CodeSurvey
