import CodeSurvey.Proofs.KeptResults

/-!
# Requests through the table

The table of a file spares work and changes nothing else: as long as no kind is discarded, a kind
answers what it would answer if nothing had been asked before, whatever was asked and how often.
What has been answered stays, and what has been discarded stays empty.

- `Context.remembers`: a request forgets nothing that is known.
- `Context.steady`: on a table that holds fresh answers a request gives the fresh answer.
- `Context.requests_transparent`: the same for every sequence of requests.
-/

namespace CodeSurvey.Extract

variable {c : Context} {kept : Kept}

/-! ## How requests are made up -/

/-- What holds of steps that look nothing up and is kept by sequences and by the table holds of
every request. -/
theorem Context.results_induction (c : Context) {P : {α : Type} → Step α → Prop}
    (hpure : ∀ {α : Type} (a : α), P (pure a))
    (hbind : ∀ {α β : Type} {s : Step α} {f : α → Step β}, P s → (∀ a, P (f a)) → P (s >>= f))
    (hcode : ∀ {α : Type} (entities : List α), P (c.keepingCode entities))
    (honce : ∀ {k : Kind} {find : Step (List k.Entity)}, c.results k = c.once k find → P find →
      P (c.once k find)) (k : Kind) : P (c.results k) := by
  have hbase {j : Kind} (entities : List j.Entity)
      (hresults : c.results j = c.once j (c.keepingCode entities)) : P (c.results j) := by
    rw [hresults]
    exact honce hresults (hcode entities)
  have hfunctions : P (c.results .functions) := hbase _ rfl
  have hclasses : P (c.results .classes) := hbase _ rfl
  have hroutes : P (c.results .routes) := hbase _ rfl
  have hinterfaces : P (c.results .interfaces) := hbase _ rfl
  have htypes : P (c.results .types) := hbase _ rfl
  cases k with
  | functions => exact hfunctions
  | classes => exact hclasses
  | interfaces => exact hinterfaces
  | types => exact htypes
  | routes => exact hroutes
  | middlewares | hooks => exact hbase _ rfl
  | services =>
    exact honce rfl (hbind hfunctions fun _ => hbind hclasses fun _ => hpure _)
  | controllers =>
    exact honce rfl (hbind hroutes fun _ => hbind hfunctions fun _ => hbind hclasses fun _ =>
      hpure _)
  | utilities => exact honce rfl (hbind hfunctions fun _ => hpure _)
  | models =>
    -- A schema file reads no classes.
    refine honce rfl ?_
    split
    · exact hpure _
    · exact hbind hclasses fun _ => hpure _
  | components =>
    -- Without components no types are looked up.
    refine honce rfl ?_
    dsimp only
    split
    · exact hpure _
    · exact hbind (hcode _) fun _ => hbind hinterfaces fun _ => hbind htypes fun _ => hpure _

/-- How a request for a kind goes: which answer it gives, and which table it leaves. What holds of
single requests is shown case by case. -/
inductive Context.Goes (c : Context) {k : Kind} (find : Step (List k.Entity)) (kept : Kept) :
    Except Failure (List k.Entity) × Kept → Prop
  | known {entities : List k.Entity} (hk : kept k = some entities) :
    Goes c find kept (.ok entities, kept)
  | inapplicable (hk : kept k = none) (happlies : c.extractors.appliesTo c.view k = false) :
    Goes c find kept (.ok [], kept.put k [])
  | broken {message : String} (hk : kept k = none)
    (happlies : c.extractors.appliesTo c.view k = true)
    (hfault : c.faults.lookup k.name = some message) :
    Goes c find kept (.error (.broken message), kept)
  | failed {e : Failure} {after : Kept} (hk : kept k = none)
    (happlies : c.extractors.appliesTo c.view k = true)
    (hfault : c.faults.lookup k.name = none) (hfind : find.answer kept = (.error e, after)) :
    Goes c find kept (.error e, after)
  | found {entities : List k.Entity} {after : Kept} (hk : kept k = none)
    (happlies : c.extractors.appliesTo c.view k = true)
    (hfault : c.faults.lookup k.name = none) (hfind : find.answer kept = (.ok entities, after)) :
    Goes c find kept (.ok entities, after.put k entities)

theorem Context.goes_once (c : Context) {k : Kind} (find : Step (List k.Entity)) (kept : Kept) :
    c.Goes find kept ((c.once k find).answer kept) := by
  rw [Context.answer_once]
  cases hk : kept k with
  | some entities => exact .known hk
  | none =>
    dsimp only
    split
    · rename_i happlies
      cases hfault : c.faults.lookup k.name with
      | some message => exact .broken hk happlies hfault
      | none =>
        rcases hfind : find.answer kept with ⟨_ | entities, after⟩
        · exact .failed hk happlies hfault hfind
        · exact .found hk happlies hfault hfind
    · rename_i happlies
      exact .inapplicable hk (by simpa using happlies)

/-! ## Nothing is forgotten -/

/-- What is known before a step is known after it, with the same entities. -/
def Step.Remembers (s : Step α) : Prop :=
  ∀ (kept : Kept) (k : Kind) (entities : List k.Entity),
    kept k = some entities → (s.answer kept).2 k = some entities

theorem Step.Remembers.bind {s : Step α} {f : α → Step β} (hs : s.Remembers)
    (hf : ∀ a, (f a).Remembers) : (s >>= f).Remembers := by
  intro kept k entities h
  have hfirst := hs kept k entities h
  rw [Step.answer_bind]
  rcases hanswer : s.answer kept with ⟨_ | a, after⟩
  · rw [hanswer] at hfirst
    exact hfirst
  · rw [hanswer] at hfirst
    exact hf a after k entities hfirst

theorem Context.remembers_keepingCode (c : Context) (entities : List α) :
    (c.keepingCode entities).Remembers := by
  intro kept k known h
  rw [Context.answer_keepingCode]
  cases c.extractors.limits.code with
  | ok caps => exact h
  | error e => cases entities <;> exact h

/-- A search is made only for a kind of which nothing is known, so what it finds replaces
nothing. -/
theorem Context.remembers_once (c : Context) {k : Kind} {find : Step (List k.Entity)}
    (hfind : find.Remembers) : (c.once k find).Remembers := by
  intro kept j known h
  have hkj (hk : kept k = none) : k ≠ j := by
    rintro rfl
    rw [hk] at h
    contradiction
  have hfound := hfind kept j known h
  have hgoes := c.goes_once find kept
  generalize (c.once k find).answer kept = outcome at hgoes ⊢
  cases hgoes with
  | known hk => exact h
  | inapplicable hk happlies => exact (Kept.put_of_ne kept _ (hkj hk)).trans h
  | broken hk happlies hfault => exact h
  | failed hk happlies hfault hanswer =>
    rw [hanswer] at hfound
    exact hfound
  | found hk happlies hfault hanswer =>
    rw [hanswer] at hfound
    exact (Kept.put_of_ne _ _ (hkj hk)).trans hfound

/-- **A request forgets nothing.** -/
theorem Context.remembers (c : Context) (k : Kind) : (c.results k).Remembers := by
  apply c.results_induction (P := Step.Remembers)
  · intro α a kept k entities h
    exact h
  · exact Step.Remembers.bind
  · exact c.remembers_keepingCode
  · intro k find _ hfind
    exact c.remembers_once hfind

/-! ## Fresh answers -/

/-- What a kind answers when nothing has been asked before. -/
def Context.fresh (c : Context) (k : Kind) : Except Failure (List k.Entity) :=
  ((c.results k).answer Kept.nothing).1

/-- Whatever the table holds is a fresh answer. -/
def Context.HoldsFresh (c : Context) (kept : Kept) : Prop :=
  ∀ k entities, kept k = some entities → c.fresh k = .ok entities

theorem Context.holdsFresh_nothing (c : Context) : c.HoldsFresh Kept.nothing := by
  intro k entities h
  contradiction

theorem Context.HoldsFresh.put (h : c.HoldsFresh kept) {k : Kind} {entities : List k.Entity}
    (hk : c.fresh k = .ok entities) : c.HoldsFresh (kept.put k entities) := by
  intro j known hj
  by_cases hkj : k = j
  · subst hkj
    rw [Kept.put_self] at hj
    rw [hk, Option.some.inj hj]
  · rw [Kept.put_of_ne kept _ hkj] at hj
    exact h j known hj

/-- On a table of fresh answers a step answers as on the empty one and leaves such a table. -/
def Step.Steady (c : Context) (s : Step α) : Prop :=
  ∀ kept, c.HoldsFresh kept →
    (s.answer kept).1 = (s.answer Kept.nothing).1 ∧ c.HoldsFresh (s.answer kept).2

theorem Step.Steady.bind {s : Step α} {f : α → Step β} (hs : s.Steady c)
    (hf : ∀ a, (f a).Steady c) : (s >>= f).Steady c := by
  intro kept h
  obtain ⟨hanswer, hafter⟩ := hs kept h
  obtain ⟨-, hafter'⟩ := hs Kept.nothing c.holdsFresh_nothing
  rw [Step.answer_bind, Step.answer_bind]
  rcases hkept : s.answer kept with ⟨result, after⟩
  rcases hnothing : s.answer Kept.nothing with ⟨result', after'⟩
  rw [hkept] at hafter
  rw [hnothing] at hafter'
  obtain rfl : result = result' := by rwa [hkept, hnothing] at hanswer
  cases result with
  | error e => exact ⟨rfl, hafter⟩
  | ok a =>
    -- Both runs go on from tables of fresh answers.
    obtain ⟨hnext, hlast⟩ := hf a after hafter
    obtain ⟨hnext', -⟩ := hf a after' hafter'
    exact ⟨hnext.trans hnext'.symm, hlast⟩

theorem Context.steady_keepingCode (c : Context) (entities : List α) :
    (c.keepingCode entities).Steady c := by
  intro kept h
  rw [Context.answer_keepingCode, Context.answer_keepingCode]
  cases c.extractors.limits.code with
  | ok caps => exact ⟨rfl, h⟩
  | error e => cases entities <;> exact ⟨rfl, h⟩

/-- A fresh answer is what the search finds, if there is a search. -/
theorem Context.fresh_eq_find {k : Kind} {find : Step (List k.Entity)}
    (hresults : c.results k = c.once k find) (happlies : c.extractors.appliesTo c.view k = true)
    (hfault : c.faults.lookup k.name = none) : c.fresh k = (find.answer Kept.nothing).1 := by
  rw [Context.fresh, hresults, Context.answer_once, happlies, hfault]
  rcases find.answer Kept.nothing with ⟨_ | _, _⟩ <;> rfl

/-- The search for a kind may go through the table: what is known of the kind is what the search
would find. -/
theorem Context.steady_once {k : Kind} {find : Step (List k.Entity)}
    (hresults : c.results k = c.once k find) (hfind : find.Steady c) :
    (c.once k find).Steady c := by
  intro kept h
  have hfresh : c.fresh k = ((c.once k find).answer Kept.nothing).1 := by
    rw [Context.fresh, hresults]
  obtain ⟨hsame, hafter⟩ := hfind kept h
  have hgoes := c.goes_once find kept
  rw [← hfresh]
  generalize (c.once k find).answer kept = outcome at hgoes ⊢
  -- What the table knows is right already; what is found now is what a search from nothing finds.
  cases hgoes with
  | known hk => exact ⟨(h k _ hk).symm, h⟩
  | inapplicable hk happlies =>
    have hempty : c.fresh k = .ok [] := by
      rw [hfresh, Context.answer_once, happlies]
      rfl
    exact ⟨hempty.symm, h.put hempty⟩
  | broken hk happlies hfault =>
    rw [hfresh, Context.answer_once, happlies, hfault]
    exact ⟨rfl, h⟩
  | failed hk happlies hfault hanswer =>
    have hfailed := Context.fresh_eq_find hresults happlies hfault
    rw [← hsame, hanswer] at hfailed
    rw [hanswer] at hafter
    exact ⟨hfailed.symm, hafter⟩
  | found hk happlies hfault hanswer =>
    have hfound := Context.fresh_eq_find hresults happlies hfault
    rw [← hsame, hanswer] at hfound
    rw [hanswer] at hafter
    exact ⟨hfound.symm, hafter.put hfound⟩

/-- **A request answers afresh.** -/
theorem Context.steady (c : Context) (k : Kind) : (c.results k).Steady c := by
  apply c.results_induction (P := Step.Steady c)
  · intro α a kept h
    exact ⟨rfl, h⟩
  · exact Step.Steady.bind
  · exact c.steady_keepingCode
  · exact Context.steady_once

/-! ## Sequences of requests -/

/-- What can be asked of the table of a file. -/
inductive Request where
  | results (k : Kind)
  | discard (k : Kind)
  deriving DecidableEq

/-- The table after a request. -/
def Context.perform (c : Context) (kept : Kept) : Request → Kept
  | .results k => ((c.results k).answer kept).2
  | .discard k => ((Context.discard k).run kept).2

/-- The table after a sequence of requests. -/
def Context.tableAfter (c : Context) (requests : List Request) : Kept :=
  requests.foldl c.perform Kept.nothing

/-- What a kind answers after a sequence of requests. -/
def Context.answerAfter (c : Context) (requests : List Request) (k : Kind) :
    Except Failure (List k.Entity) :=
  ((c.results k).answer (c.tableAfter requests)).1

/-- What is known stays until it is discarded. -/
theorem Context.perform_known {request : Request} {k : Kind} {entities : List k.Entity}
    (h : kept k = some entities) (hrequest : request ≠ .discard k) :
    c.perform kept request k = some entities := by
  cases request with
  | results j => exact c.remembers j kept k entities h
  | discard j =>
    have hjk : j ≠ k := fun hjk => hrequest (congrArg Request.discard hjk)
    exact (Kept.put_of_ne kept _ hjk).trans h

/-- What is known to be empty stays so: discarding it changes nothing. -/
theorem Context.perform_empty {k : Kind} (h : kept k = some []) (request : Request) :
    c.perform kept request k = some [] := by
  by_cases hrequest : request = .discard k
  · subst hrequest
    exact Kept.put_self kept k []
  · exact c.perform_known h hrequest

theorem Context.exists_once (c : Context) (k : Kind) : ∃ find, c.results k = c.once k find := by
  cases k <;> exact ⟨_, rfl⟩

theorem Context.answer_known {k : Kind} {entities : List k.Entity} (h : kept k = some entities) :
    (c.results k).answer kept = (.ok entities, kept) := by
  obtain ⟨find, hresults⟩ := c.exists_once k
  rw [hresults, Context.answer_once, h]

/-- A kind that has answered is known. -/
theorem Context.known_of_answer {k : Kind} {entities : List k.Entity}
    (h : ((c.results k).answer kept).1 = .ok entities) :
    c.perform kept (.results k) k = some entities := by
  obtain ⟨find, hresults⟩ := c.exists_once k
  change ((c.results k).answer kept).2 k = some entities
  rw [hresults] at h ⊢
  have hgoes := c.goes_once find kept
  generalize (c.once k find).answer kept = outcome at hgoes h ⊢
  cases hgoes with
  | known hk => exact hk.trans (congrArg some (Except.ok.inj h))
  | inapplicable hk happlies =>
    exact (Kept.put_self kept k _).trans (congrArg some (Except.ok.inj h))
  | broken hk happlies hfault => contradiction
  | failed hk happlies hfault hanswer => contradiction
  | found hk happlies hfault hanswer =>
    exact (Kept.put_self _ k _).trans (congrArg some (Except.ok.inj h))

theorem Context.tableAfter_append (c : Context) (before : List Request) (request : Request)
    (between : List Request) :
    c.tableAfter (before ++ request :: between) =
      between.foldl c.perform (c.perform (c.tableAfter before) request) := by
  rw [Context.tableAfter, List.foldl_append, List.foldl_cons]
  rfl

theorem Context.foldl_known {requests : List Request} {k : Kind} {entities : List k.Entity}
    (h : kept k = some entities) (hrequests : Request.discard k ∉ requests) :
    requests.foldl c.perform kept k = some entities := by
  induction requests generalizing kept with
  | nil => exact h
  | cons request rest ih =>
    rw [List.mem_cons, not_or] at hrequests
    exact ih (c.perform_known h (Ne.symm hrequests.1)) hrequests.2

theorem Context.foldl_empty {requests : List Request} {k : Kind} (h : kept k = some []) :
    requests.foldl c.perform kept k = some [] := by
  induction requests generalizing kept with
  | nil => exact h
  | cons request rest ih => exact ih (c.perform_empty h request)

/-- Without discarding, the table holds nothing but fresh answers. -/
theorem Context.HoldsFresh.foldl {requests : List Request} (h : c.HoldsFresh kept)
    (hrequests : ∀ j, Request.discard j ∉ requests) :
    c.HoldsFresh (requests.foldl c.perform kept) := by
  induction requests generalizing kept with
  | nil => exact h
  | cons request rest ih =>
    have hrest : ∀ j, Request.discard j ∉ rest :=
      fun j hj => hrequests j (List.mem_cons_of_mem _ hj)
    cases request with
    | results k => exact ih (c.steady k kept h).2 hrest
    | discard j => exact absurd List.mem_cons_self (hrequests j)

/-- If no component breaks down and code can be kept, a request answers on every table. -/
theorem Context.exists_answer (hfaults : c.faults = []) {caps : List (String × Int)}
    (hcode : c.extractors.limits.code = .ok caps) (k : Kind) (kept : Kept) :
    ∃ entities, ((c.results k).answer kept).1 = .ok entities := by
  revert kept
  apply c.results_induction (P := fun s => ∀ kept, ∃ a, (s.answer kept).1 = .ok a)
  · intro α a kept
    exact ⟨a, rfl⟩
  · intro α β s f hs hf kept
    obtain ⟨a, ha⟩ := hs kept
    rw [Step.answer_bind]
    rcases hanswer : s.answer kept with ⟨result, after⟩
    rw [hanswer] at ha
    dsimp only at ha
    subst ha
    exact hf a after
  · intro α entities kept
    rw [Context.answer_keepingCode, hcode]
    exact ⟨entities, rfl⟩
  · intro k find _ hfind kept
    obtain ⟨found, hfound⟩ := hfind kept
    have hgoes := c.goes_once find kept
    generalize (c.once k find).answer kept = outcome at hgoes ⊢
    -- Only a fault and a failing search answer with an error, and both are excluded.
    cases hgoes with
    | known hk => exact ⟨_, rfl⟩
    | inapplicable hk happlies => exact ⟨[], rfl⟩
    | broken hk happlies hfault =>
      rw [hfaults] at hfault
      contradiction
    | failed hk happlies hfault hanswer =>
      rw [hanswer] at hfound
      contradiction
    | found hk happlies hfault hanswer => exact ⟨_, rfl⟩

/-- **The table is transparent.** What a kind has answered it answers until it is discarded,
whatever else is asked or discarded meanwhile; a kind that has been discarded is empty for good; and
as long as nothing is discarded, a kind answers as if it were asked alone. If no component breaks
down and code can be kept, every request is answered. -/
theorem Context.requests_transparent (c : Context) :
    (∀ before between k entities, c.answerAfter before k = .ok entities →
      Request.discard k ∉ between →
      c.answerAfter (before ++ .results k :: between) k = .ok entities) ∧
    (∀ before between k, c.answerAfter (before ++ .discard k :: between) k = .ok []) ∧
    (∀ requests k, (∀ j, Request.discard j ∉ requests) →
      c.answerAfter requests k = c.answerAfter [] k) ∧
    (∀ caps, c.faults = [] → c.extractors.limits.code = .ok caps →
      ∀ requests k, ∃ entities, c.answerAfter requests k = .ok entities) := by
  refine ⟨?answered, ?discarded, ?fresh, ?total⟩
  case answered =>
    intro before between k entities hanswer hbetween
    have hknown := c.foldl_known (c.known_of_answer hanswer) hbetween
    rw [Context.answerAfter, c.tableAfter_append, Context.answer_known hknown]
  case discarded =>
    intro before between k
    have hput : c.perform (c.tableAfter before) (.discard k) k = some [] := Kept.put_self _ k []
    rw [Context.answerAfter, c.tableAfter_append,
      Context.answer_known (Context.foldl_empty hput)]
  case fresh =>
    intro requests k hrequests
    exact (c.steady k _ (c.holdsFresh_nothing.foldl hrequests)).1
  case total =>
    intro caps hfaults hcode requests k
    exact c.exists_answer hfaults hcode k _

/-- A service with a function and a class, read under the default limits. -/
def serviceContext : Context :=
  { extractors := ⟨⟨200, 2000000, 5000, 2000, 50, .ok []⟩, .standard, ["ts"], ["tsx"]⟩
    view := View.ofFile ⟨"src/user.service.ts", "ts", true, "service", 2, 45⟩
      "function f() \x7b\x7d\nclass A \x7b g() \x7b\x7d \x7d\n".toList }

/-- The service is read through the table, and the function is discarded in the end. -/
theorem Context.requests_transparent_service :
    ∃ functions, serviceContext.answerAfter [] .functions = .ok functions ∧
      functions.map (·.name) = ["f"] ∧
      serviceContext.answerAfter [.results .functions, .discard .classes, .results .services]
        .functions = .ok functions ∧
      serviceContext.answerAfter [.results .services, .results .services] .functions =
        .ok functions ∧
      serviceContext.answerAfter [.results .functions, .discard .functions, .results .services]
        .functions = .ok [] := by
  obtain ⟨hanswered, hdiscarded, hfresh, htotal⟩ := serviceContext.requests_transparent
  obtain ⟨functions, hfunctions⟩ := htotal [] rfl rfl [] .functions
  have hnames : ((serviceContext.answerAfter [] .functions).map fun functions =>
      functions.map (·.name)).toOption = some ["f"] := by
    decide +kernel
  rw [hfunctions] at hnames
  refine ⟨functions, hfunctions, Option.some.inj hnames, ?_, ?_, ?_⟩
  · exact hanswered [] [.discard .classes, .results .services] .functions functions hfunctions
      (by decide)
  · exact (hfresh [.results .services, .results .services] .functions (by simp)).trans hfunctions
  · exact hdiscarded [.results .functions] [.results .services] .functions

end CodeSurvey.Extract
