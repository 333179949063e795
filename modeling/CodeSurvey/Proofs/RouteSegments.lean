import CodeSurvey.Extract.RoutePath
import CodeSurvey.Proofs.Replacements
import CodeSurvey.Proofs.Squeezing

/-!
# Routes segment by segment

Three replacements turn the path at which a route is laid out into the path of the route. Each of
them goes through the whole text. No match reaches from one segment into the next, so the path is
translated segment by segment, and the names of the parameters can be read back from the result.

- `Segment`: what a segment stands for, how it is written, and what it is in the path of a route.
- `rewrites_segments`: a replacement that works on each segment works on all of them.
- `Plain.rewrites_groups`, `Plain.rewrites_catchAlls`, `Plain.rewrites_names`: the replacements.
- `rooted_route`: what is done at the end of a path leaves routes alone.
- `parameters_route`: the names that are read back.
- `routePath_segments`: the whole translation.
-/

namespace CodeSurvey.Extract

open Text Pattern

/-! ## Segments -/

/-- A segment of the path at which a route is laid out. -/
inductive Segment where
  | static (text : List Char)
  /-- A name that stands for one segment. -/
  | dynamic (name : List Char)
  /-- A name that stands for any number of segments, or for none too. -/
  | catchAll (optional : Bool) (name : List Char)
  | group (name : List Char)
  deriving DecidableEq

/-- The name of a parameter: words and hyphens. -/
structure IsName (name : List Char) : Prop where
  nonempty : name ≠ []
  chars : ∀ c ∈ name, isWord c = true ∨ c = '-'

instance (name : List Char) : Decidable (IsName name) :=
  decidable_of_iff (name ≠ [] ∧ ∀ c ∈ name, isWord c = true ∨ c = '-')
    ⟨fun h => ⟨h.1, h.2⟩, fun h => ⟨h.nonempty, h.chars⟩⟩

/-- What stands before the name of a catch-all segment, which may be optional. -/
def catchAllFront (optional : Bool) : List Char :=
  if optional then "[[...".toList else "[...".toList

/-- What stands behind it. -/
def catchAllBack (optional : Bool) : List Char :=
  if optional then "]]".toList else "]".toList

namespace Segment

/-- The segment as it is written. -/
def written : Segment → List Char
  | static text => text
  | dynamic name => "[".toList ++ (name ++ "]".toList)
  | catchAll optional name => catchAllFront optional ++ (name ++ catchAllBack optional)
  | group name => "(".toList ++ (name ++ ")".toList)

/-- The segment in the path of a route, where groups do not appear. -/
def route? : Segment → Option (List Char)
  | static text => some text
  | dynamic name => some (':' :: name)
  | catchAll _ name => some (':' :: (name ++ ['*']))
  | group _ => none

def isGroup : Segment → Bool
  | group _ => true
  | _ => false

/-- The parameter that the segment stands for. -/
def parameter? : Segment → Option (List Char)
  | dynamic name | catchAll _ name => some name
  | static _ | group _ => none

/-- The segment can be told from the others by how it is written. -/
def Plain : Segment → Prop
  | static text => text ≠ [] ∧ ∀ c ∈ text, c ∉ "/()[]:*".toList
  | dynamic name | catchAll _ name => IsName name
  | group name => ∀ c ∈ name, c ∉ "/)".toList

instance : (s : Segment) → Decidable s.Plain
  | static text => inferInstanceAs (Decidable (text ≠ [] ∧ ∀ c ∈ text, c ∉ "/()[]:*".toList))
  | dynamic name | catchAll _ name => inferInstanceAs (Decidable (IsName name))
  | group name => inferInstanceAs (Decidable (∀ c ∈ name, c ∉ "/)".toList))

/-- What becomes of the segment when groups are taken away. -/
def afterGroups? : Segment → Option (List Char)
  | group _ => none
  | s => some s.written

/-- What becomes of it when catch-all segments are replaced next. -/
def afterCatchAlls? : Segment → Option (List Char)
  | catchAll _ name => some (':' :: (name ++ ['*']))
  | s => s.afterGroups?

end Segment

/-- What is left of a segment, if anything, with a slash before it. -/
def behindSlash : Option (List Char) → List Char
  | some text => '/' :: text
  | none => []

/-- What stands here, if anything, is a slash. -/
def AtSlash (rest : List Char) : Prop :=
  ∀ c, rest.head? = some c → c = '/'

variable {name rest text : List Char} {s : Segment} {segments : List Segment}

theorem AtSlash.append (h : AtSlash text) (hrest : AtSlash rest) : AtSlash (text ++ rest) := by
  cases text with
  | nil => exact hrest
  | cons c others => exact h

theorem atSlash_cons (text : List Char) : AtSlash ('/' :: text) := by
  rintro c ⟨⟩
  rfl

theorem atSlash_nil : AtSlash [] := by
  rintro c ⟨⟩

theorem atSlash_behindSlash (text? : Option (List Char)) : AtSlash (behindSlash text?) := by
  cases text? with
  | none => exact atSlash_nil
  | some text => exact atSlash_cons text

theorem atSlash_flatMap (left : Segment → Option (List Char)) (segments : List Segment) :
    AtSlash (segments.flatMap fun s => behindSlash (left s)) := by
  induction segments with
  | nil => exact atSlash_nil
  | cons s segments ih => exact (atSlash_behindSlash (left s)).append ih

/-- A set without the slash does not go on at a slash. -/
theorem AtSlash.any_mem (h : AtSlash rest) {set : CharSet} (hset : set.mem '/' = false) :
    rest.head?.any set.mem = false := by
  cases rest with
  | nil => rfl
  | cons c others =>
    obtain rfl := h c rfl
    exact hset

/-- Names hold none of the marks of segments. -/
theorem IsName.notMem (h : IsName name) : ∀ c ∈ "/()[].:*".toList, c ∉ name := by
  have hmarks : ∀ c ∈ "/()[].:*".toList, isWord c = false ∧ c ≠ '-' := by decide
  intro c hc hmem
  obtain ⟨hword, hhyphen⟩ := hmarks c hc
  rcases h.chars c hmem with hname | hname
  · rw [hword] at hname
    contradiction
  · exact hhyphen hname

/-- The first character of a name is none of these marks either. -/
theorem IsName.head?_ne (h : IsName name) (more : List Char) {c : Char}
    (hc : c ∈ "/()[].:*".toList) : (name ++ more).head? ≠ some c := by
  obtain ⟨first, others, rfl⟩ := List.exists_cons_of_ne_nil h.nonempty
  intro hhead
  obtain rfl : first = c := Option.some.inj hhead
  exact h.notMem first hc List.mem_cons_self

/-- A static segment holds none of the marks of the others. -/
theorem Segment.Plain.notMem_static (h : (static text).Plain) {c : Char}
    (hc : c ∈ "/()[]:*".toList) : c ∉ text :=
  fun hmem => h.2 c hmem hc

/-! ## Replacing in all segments -/

/-- **Segments do not interfere.** What a replacement makes of each segment in front of a slash, it
makes of all of them. The induction is on the segments; each stands in front of those behind it. -/
theorem rewrites_segments {p : Pattern} {f : Match → List Char}
    {source target : Segment → Option (List Char)}
    (h : ∀ s ∈ segments, ∀ rest, AtSlash rest →
      p.Rewrites f (behindSlash (source s)) rest (behindSlash (target s))) :
    p.Rewrites f (segments.flatMap fun s => behindSlash (source s)) []
      (segments.flatMap fun s => behindSlash (target s)) := by
  induction segments with
  | nil => exact Rewrites.nil []
  | cons s segments ih =>
    obtain ⟨hs, hsegments⟩ := List.forall_mem_cons.mp h
    rw [List.flatMap_cons, List.flatMap_cons]
    apply Rewrites.append _ (ih hsegments)
    rw [List.append_nil]
    exact hs _ (atSlash_flatMap source segments)

/-! ## Groups -/

theorem groupSegment_reads : groupSegment.surely (fun _ => true) = true := by decide

/-- What begins with no parenthesis is no group. -/
theorem refuses_noGroup (hparen : rest.head? ≠ some '(') :
    groupSegment.Refuses ('/' :: rest) := by
  have hstart : ¬"/(".toList <+: '/' :: rest := by
    rintro ⟨more, hmore⟩
    exact hparen (by rw [← (List.cons.inj hmore).2]; rfl)
  exact ((refuses_lit_of_not_start hstart).seq _).seq _

/-- What begins with no parenthesis and holds no slash is kept where groups are replaced. -/
theorem rewrites_noGroup {f : Match → List Char} (hslash : '/' ∉ text)
    (hparen : (text ++ rest).head? ≠ some '(') :
    groupSegment.Rewrites f ('/' :: text) rest ('/' :: text) :=
  (rewrites_of_notMem groupSegment_reads (by decide) hslash f rest).cons groupSegment_reads
    (refuses_noGroup hparen)

/-- A group is read up to its parenthesis. -/
theorem prefers_groupSegment (hname : ∀ c ∈ name, c ∉ "/)".toList) (rest : List Char)
    (offset : Nat) :
    groupSegment.Prefers ("/(".toList ++ name ++ ")".toList) rest offset [] := by
  have hread : (many (noneOf "/)")).Prefers name (")".toList ++ rest)
      (offset + "/(".toList.length) [] := by
    refine prefers_many _ rfl fun c hc => ?_
    have hmarks := hname c hc
    simp only [String.reduceToList, List.mem_cons, List.not_mem_nil, or_false, not_or] at hmarks
    simp [CharSet.mem, CharSet.ofString, CharSet.unions, Ne.symm hmarks.1, Ne.symm hmarks.2]
  exact ((takes_lit "/(" _ offset).prefers.seq hread).seq (takes_lit ")" rest _).prefers

/-- Groups vanish with the slash before them, and all other segments are kept. -/
theorem Segment.Plain.rewrites_groups (h : s.Plain) (rest : List Char) :
    groupSegment.Rewrites (fun _ => []) (behindSlash (some s.written)) rest
      (behindSlash s.afterGroups?) := by
  cases s with
  | static text =>
    obtain ⟨c, others, rfl⟩ := List.exists_cons_of_ne_nil h.1
    have hparen : '(' ∉ c :: others := h.notMem_static (by decide)
    refine rewrites_noGroup (h.notMem_static (by decide)) fun hhead => hparen ?_
    rw [← Option.some.inj hhead]
    exact List.mem_cons_self
  | dynamic name =>
    have hslash := h.notMem '/' (by decide)
    exact rewrites_noGroup (by simpa [written] using hslash) (by simp [written])
  | catchAll optional name =>
    have hslash := h.notMem '/' (by decide)
    cases optional with
    | false =>
      exact rewrites_noGroup (by simpa [written, catchAllFront, catchAllBack] using hslash)
        (by simp [written, catchAllFront])
    | true =>
      exact rewrites_noGroup (by simpa [written, catchAllFront, catchAllBack] using hslash)
        (by simp [written, catchAllFront])
  | group name =>
    intro before
    have hheader := prefers_groupSegment h rest before.length
    exact replacedBehind_of_prefers groupSegment_reads hheader

/-! ## Catch-all segments -/

/-- What begins with a bracket is not read at a slash. -/
theorem refuses_slash {p : Pattern} (hreads : p.surely (fun _ => true) = true)
    (hopens : p.opens (·.within (.char '[')) = true) (text : List Char) :
    p.Refuses ('/' :: text) :=
  refuses_of_opens hopens hreads (by decide)

theorem catchAllSegment_reads : catchAllSegment.surely (fun _ => true) = true := by decide

theorem catchAllSegment_opens : catchAllSegment.opens (·.within (.char '[')) = true := by decide

/-- The names of parameters are read to their end. -/
theorem prefers_segmentName (hname : IsName name) (offset : Nat)
    (hrest : rest.head?.any (CharSet.union .word (.char '-')).mem = false) :
    segmentName.Prefers name rest offset [] := by
  refine prefers_many1 offset hrest (fun c hc => ?_) hname.nonempty
  rcases hname.chars c hc with hword | rfl
  · simp [CharSet.mem, hword]
  · rfl

/-- One bracket closes where no other one follows. -/
theorem takes_bracket (offset : Nat) (hrest : rest.head? ≠ some ']') :
    (opt (lit "]") ++ lit "]").Takes "]".toList rest offset [] := by
  intro before kept goal
  -- Read as the one that may be there, it would leave none that has to be.
  have hnone : (lit "]").Refuses rest := refuses_lit ']' rfl hrest
  rw [run_seq, run_opt, takes_lit "]" rest offset, hnone, Option.none_or,
    takes_lit "]" rest offset]

/-- Two brackets close, whatever follows. -/
theorem prefers_brackets (rest : List Char) (offset : Nat) :
    (opt (lit "]") ++ lit "]").Prefers "]]".toList rest offset [] :=
  (takes_lit "]" _ offset).prefers.opt.seq (takes_lit "]" rest _).prefers

theorem prefers_catchAllFront (optional : Bool) (more : List Char) (offset : Nat) :
    (lit "[" ++ opt (lit "[") ++ lit "...").Prefers (catchAllFront optional) more offset [] := by
  have hpoints (place : Nat) := (takes_lit "..." more place).prefers
  cases optional with
  | false =>
    -- A point stands where the second bracket may be.
    have hnone : (lit "[").Refuses ("...".toList ++ more) := refuses_lit '[' rfl (by simp)
    exact ((takes_lit "[" _ offset).seq_nothing (hnone.opt _)).prefers.seq (hpoints _)
  | true =>
    exact ((takes_lit "[" _ offset).prefers.seq (takes_lit "[" _ _).prefers.opt).seq (hpoints _)

theorem prefers_catchAllBack (optional : Bool) (hrest : AtSlash rest) (offset : Nat) :
    (opt (lit "]") ++ lit "]").Prefers (catchAllBack optional) rest offset [] := by
  cases optional with
  | false =>
    refine (takes_bracket offset fun hhead => ?_).prefers
    exact absurd (hrest ']' hhead) (by decide)
  | true => exact prefers_brackets rest offset

/-- A catch-all segment is read as a whole, and its name is kept. -/
theorem prefers_catchAllSegment (optional : Bool) (hname : IsName name) (hrest : AtSlash rest)
    (offset : Nat) :
    catchAllSegment.Prefers (catchAllFront optional ++ (name ++ catchAllBack optional)) rest offset
      [⟨"name", offset + (catchAllFront optional).length,
        offset + (catchAllFront optional).length + name.length⟩] := by
  have hback := prefers_catchAllBack optional hrest
  have hbracket : (catchAllBack optional ++ rest).head?.any
      (CharSet.union .word (.char '-')).mem = false := by
    cases optional with
    | false => show (CharSet.union .word (.char '-')).mem ']' = false; decide
    | true => show (CharSet.union .word (.char '-')).mem ']' = false; decide
  have hkept := (prefers_segmentName hname (offset + (catchAllFront optional).length)
    hbracket).capture "name"
  have hwhole := ((prefers_catchAllFront optional _ offset).seq hkept).seq (hback _)
  rw [List.append_assoc] at hwhole
  exact hwhole

/-- No three points stand in front of the name of a dynamic segment. -/
theorem refuses_catchAllSegment (hname : IsName name) (more : List Char) :
    catchAllSegment.Refuses ("[".toList ++ (name ++ more)) := by
  have hbracket : (lit "[").Refuses (name ++ more) :=
    refuses_lit '[' rfl (hname.head?_ne more (by decide))
  have hpoint : (lit "...").Refuses (name ++ more) :=
    refuses_lit '.' rfl (hname.head?_ne more (by decide))
  have hfront (offset : Nat) :
      (lit "[" ++ opt (lit "[")).Takes "[".toList (name ++ more) offset [] :=
    (takes_lit "[" _ offset).seq_nothing (hbracket.opt _)
  exact (((Takes.seq_refuses (fun offset => ⟨[], hfront offset⟩) hpoint).seq _).seq _).seq _

/-- Catch-all segments are replaced, and all other segments are kept. -/
theorem Segment.Plain.rewrites_catchAlls (h : s.Plain) (hrest : AtSlash rest) :
    catchAllSegment.Rewrites (fun m => ':' :: (m.group? "name").getD [] ++ ['*'])
      (behindSlash s.afterGroups?) rest (behindSlash s.afterCatchAlls?) := by
  have hslash := refuses_slash catchAllSegment_reads catchAllSegment_opens
  cases s with
  | static text =>
    have hmark : '[' ∉ '/' :: text := by
      simpa using h.notMem_static (show '[' ∈ "/()[]:*".toList by decide)
    exact rewrites_of_notMem catchAllSegment_reads catchAllSegment_opens hmark _ rest
  | dynamic name =>
    have hmark : '[' ∉ name ++ "]".toList := by
      have hbare := h.notMem '[' (by decide)
      simpa using hbare
    -- The bracket opens no catch-all segment, and no other bracket opens behind it.
    have hrefuses : catchAllSegment.Refuses ('[' :: ((name ++ "]".toList) ++ rest)) := by
      rw [List.append_assoc]
      exact refuses_catchAllSegment h _
    exact ((rewrites_of_notMem catchAllSegment_reads catchAllSegment_opens hmark _ rest).cons
      catchAllSegment_reads hrefuses).cons catchAllSegment_reads (hslash _)
  | catchAll optional name =>
    -- The slash is passed over, and all behind it is read at once.
    have hread := rewrites_named (fun text => ':' :: text ++ ['*']) catchAllSegment_reads
      fun offset => prefers_catchAllSegment optional h hrest offset
    exact hread.cons catchAllSegment_reads (hslash _)
  | group name => exact Rewrites.nil rest

/-! ## Names in brackets -/

theorem dynamicSegment_reads : dynamicSegment.surely (fun _ => true) = true := by decide

theorem dynamicSegment_opens : dynamicSegment.opens (·.within (.char '[')) = true := by decide

/-- A name in brackets is read as a whole and kept. -/
theorem prefers_dynamicSegment (hname : IsName name) (rest : List Char) (offset : Nat) :
    dynamicSegment.Prefers ("[".toList ++ (name ++ "]".toList)) rest offset
      [⟨"name", offset + "[".toList.length, offset + "[".toList.length + name.length⟩] := by
  have hbracket : ("]".toList ++ rest).head?.any (CharSet.union .word (.char '-')).mem = false := by
    show (CharSet.union .word (.char '-')).mem ']' = false
    decide
  have hkept := (prefers_segmentName hname (offset + "[".toList.length) hbracket).capture "name"
  have hwhole := ((takes_lit "[" _ offset).prefers.seq hkept).seq (takes_lit "]" rest _).prefers
  rw [List.append_assoc] at hwhole
  exact hwhole

/-- Names in brackets are replaced, and what catch-all segments have become is kept. -/
theorem Segment.Plain.rewrites_names (h : s.Plain) (rest : List Char) :
    dynamicSegment.Rewrites (fun m => ':' :: (m.group? "name").getD [])
      (behindSlash s.afterCatchAlls?) rest (behindSlash s.route?) := by
  have hslash := refuses_slash dynamicSegment_reads dynamicSegment_opens
  cases s with
  | static text =>
    have hmark : '[' ∉ '/' :: text := by
      simpa using h.notMem_static (show '[' ∈ "/()[]:*".toList by decide)
    exact rewrites_of_notMem dynamicSegment_reads dynamicSegment_opens hmark _ rest
  | dynamic name =>
    have hread := rewrites_named (fun text => ':' :: text) dynamicSegment_reads
      fun offset => prefers_dynamicSegment h rest offset
    exact hread.cons dynamicSegment_reads (hslash _)
  | catchAll optional name =>
    have hmark : '[' ∉ '/' :: ':' :: (name ++ ['*']) := by
      have hbare := h.notMem '[' (by decide)
      simpa using hbare
    exact rewrites_of_notMem dynamicSegment_reads dynamicSegment_opens hmark _ rest
  | group name => exact Rewrites.nil rest

/-! ## Whole paths -/

/-- A path after the three replacements. -/
def translated (raw : List Char) : List Char :=
  dynamicSegment.replaceAll (fun m => ':' :: (m.group? "name").getD [])
    (catchAllSegment.replaceAll (fun m => ':' :: (m.group? "name").getD [] ++ ['*'])
      (groupSegment.replaceAll (fun _ => []) raw))

/-- A path without a last segment "index" and slashes at the end, and with a slash in front. -/
def rooted (path : List Char) : List Char :=
  let index := "/index".toList
  let path := if endsWith path index then path.take (path.length - index.length) else path
  let path := dropEndWhile (· == '/') path
  if path.head? == some '/' then path else '/' :: path

theorem routePath_eq (raw : List Char) : routePath raw = rooted (translated raw) :=
  rfl

/-- **The replacements translate segments.** -/
theorem translated_segments (h : ∀ s ∈ segments, s.Plain) :
    translated (segments.flatMap fun s => behindSlash (some s.written)) =
      segments.flatMap fun s => behindSlash s.route? := by
  have hgroups := replaceAll_of_rewrites groupSegment_reads
    (rewrites_segments fun s hs rest _ => (h s hs).rewrites_groups rest)
  have hcatchAlls := replaceAll_of_rewrites catchAllSegment_reads
    (rewrites_segments fun s hs rest hrest => (h s hs).rewrites_catchAlls hrest)
  have hnames := replaceAll_of_rewrites dynamicSegment_reads
    (rewrites_segments fun s hs rest _ => (h s hs).rewrites_names rest)
  rw [translated, hgroups, hcatchAlls, hnames]

/-- Two texts that end behind the last slash with the same text have the same there. -/
theorem eq_of_suffix_behind_slash {front last more : List Char} (hlast : '/' ∉ last)
    (hmore : '/' ∉ more) (h : '/' :: more <:+ front ++ '/' :: last) : more = last := by
  obtain ⟨others, hparts⟩ := h
  rcases List.append_eq_append_iff.mp hparts with ⟨gap, -, hgap⟩ | ⟨gap, -, hgap⟩
  · cases gap with
    | nil => exact (List.cons.inj hgap).2
    | cons c gap => exact absurd (by rw [(List.cons.inj hgap).2]; simp) hmore
  · cases gap with
    | nil => exact (List.cons.inj hgap).2.symm
    | cons c gap => exact absurd (by rw [(List.cons.inj hgap).2]; simp) hlast

/-- A path that ends with a segment other than "index" is left as it is. -/
theorem rooted_eq_self {front last : List Char} (hhead : (front ++ '/' :: last).head? = some '/')
    (hne : last ≠ []) (hslash : '/' ∉ last) (hindex : last ≠ "index".toList) :
    rooted (front ++ '/' :: last) = front ++ '/' :: last := by
  have hends : endsWith (front ++ '/' :: last) "/index".toList = false := by
    by_contra hsuffix
    rw [Bool.not_eq_false] at hsuffix
    have hsame := eq_of_suffix_behind_slash hslash (by decide)
      (List.isSuffixOf_iff_suffix.mp hsuffix)
    exact hindex hsame.symm
  obtain ⟨others, c, rfl⟩ := List.eq_nil_or_concat last |>.resolve_left hne
  have hc : (c == '/') = false := by
    rw [List.concat_eq_append] at hslash
    exact beq_false_of_ne fun heq => hslash (by simp [heq])
  have hlast : (front ++ '/' :: others.concat c).getLast? = some c := by
    have hparts : front ++ '/' :: others.concat c = (front ++ '/' :: others) ++ [c] := by
      rw [List.append_assoc, List.cons_append, List.concat_eq_append]
    rw [hparts, List.getLast?_concat]
  rw [rooted]
  simp only [hends, Bool.false_eq_true, if_false]
  rw [dropEndWhile_of_getLast? hlast hc, hhead]
  rfl

theorem flatMap_route (segments : List Segment) :
    (segments.flatMap fun s => behindSlash s.route?) =
      (segments.filterMap Segment.route?).flatMap ('/' :: ·) := by
  induction segments with
  | nil => rfl
  | cons s segments ih =>
    rw [List.flatMap_cons, ih]
    cases s <;> rfl

/-- Parts with a slash before each of them. -/
theorem slash_join {parts : List (List Char)} (h : parts ≠ []) :
    '/' :: join ['/'] parts = parts.flatMap ('/' :: ·) := by
  obtain ⟨part, parts, rfl⟩ := List.exists_cons_of_ne_nil h
  rw [join_eq_flatMap]
  rfl

/-! ## Parameters -/

theorem pathParameter_reads : pathParameter.surely (fun _ => true) = true := by decide

theorem pathParameter_opens :
    pathParameter.opens (·.within (CharSet.ofString ":[")) = true := by decide

/-- No parameter begins where neither a colon nor a bracket stands. -/
theorem refuses_pathParameter {c : Char} (hcolon : c ≠ ':') (hbracket : c ≠ '[') :
    pathParameter.Refuses (c :: rest) := by
  refine refuses_of_opens pathParameter_opens pathParameter_reads ?_
  simp [CharSet.mem, CharSet.ofString, CharSet.unions, hcolon.symm, hbracket.symm]

theorem parameterChars_slash : (CharSet.compl (.ofString "]/:*")).mem '/' = false := by decide

theorem parameterChars_star : (CharSet.compl (.ofString "]/:*")).mem '*' = false := by decide

/-- A name behind a colon is read up to a slash or a star. -/
theorem prefers_pathParameter (hname : IsName name) (offset : Nat)
    (hrest : rest.head?.any (CharSet.compl (.ofString "]/:*")).mem = false) :
    pathParameter.Prefers (":".toList ++ (name ++ [])) rest offset
      [⟨"name", offset + ":".toList.length, offset + ":".toList.length + name.length⟩] := by
  -- None of the marks at which parameters end stands in a name.
  have hchars : ∀ c ∈ name, (CharSet.compl (.ofString "]/:*")).mem c = true := by
    intro c hc
    have hmarks : ∀ d ∈ "]/:*".toList, d ≠ c := by
      rintro d hd rfl
      have hnames : ∀ mark ∈ "]/:*".toList, mark ∈ "/()[].:*".toList := by decide
      exact hname.notMem d (hnames d hd) hc
    simp only [String.reduceToList, List.mem_cons, List.not_mem_nil, or_false, forall_eq_or_imp,
      forall_eq] at hmarks
    simp [CharSet.mem, CharSet.ofString, CharSet.unions, hmarks]
  have hread := (prefers_many1 (offset + 1) hrest hchars hname.nonempty).capture "name"
  rw [List.append_nil]
  exact (takes_one _ offset (by decide)).prefers.seq hread

/-- The names of the parameters behind a place. -/
def namesBehind (before after : List Char) : List (List Char) :=
  (pathParameter.foundBehind before after).filterMap (·.group? "name")

/-- A text without colons and brackets names no parameter. -/
theorem namesBehind_passed (text before : List Char) (hcolon : ':' ∉ text) (hbracket : '[' ∉ text) :
    namesBehind before (text ++ rest) = namesBehind (text.reverse ++ before) rest := by
  have hrefuses : ∀ c ∈ text, ∀ others, pathParameter.Refuses (c :: others) := fun c hc others =>
    refuses_pathParameter (fun heq => hcolon (heq ▸ hc)) (fun heq => hbracket (heq ▸ hc))
  rw [namesBehind, foundBehind_passed pathParameter_reads hrefuses, namesBehind]

/-- A name behind a colon is the first one. -/
theorem namesBehind_named (before : List Char) (hname : IsName name)
    (hrest : rest.head?.any (CharSet.compl (.ofString "]/:*")).mem = false) :
    namesBehind before (':' :: (name ++ rest)) =
      name :: namesBehind ((':' :: name).reverse ++ before) rest := by
  have htext : ':' :: (name ++ rest) = (":".toList ++ (name ++ [])) ++ rest := by simp
  have hfound := foundBehind_of_prefers pathParameter_reads
    (prefers_pathParameter hname before.length hrest)
  rw [namesBehind, htext, hfound]
  -- What is kept in this match is the name.
  refine (List.filterMap_cons_some (f := fun m : Match => m.group? "name")
    (group?_between _ ":".toList name [] _ _ rfl)).trans ?_
  rw [List.append_nil]
  rfl

/-- **The names are read back.** The parameters of a path are those for which its segments stand, in
their order. The induction is on the segments. -/
theorem parameters_route (h : ∀ s ∈ segments, s.Plain) (before : List Char) :
    namesBehind before (segments.flatMap fun s => behindSlash s.route?) =
      segments.filterMap Segment.parameter? := by
  induction segments generalizing before with
  | nil =>
    rw [List.flatMap_nil, namesBehind, foundBehind_nil pathParameter_reads]
    rfl
  | cons s segments ih =>
    obtain ⟨hs, hsegments⟩ := List.forall_mem_cons.mp h
    have hrest := (atSlash_flatMap Segment.route? segments).any_mem parameterChars_slash
    have hslash (before rest : List Char) :
        namesBehind before ('/' :: rest) = namesBehind ('/' :: before) rest :=
      namesBehind_passed ['/'] before (by decide) (by decide)
    rw [List.flatMap_cons]
    cases s with
    | static text =>
      have hcolon : ':' ∉ '/' :: text := by
        simpa using hs.notMem_static (show ':' ∈ "/()[]:*".toList by decide)
      have hbracket : '[' ∉ '/' :: text := by
        simpa using hs.notMem_static (show '[' ∈ "/()[]:*".toList by decide)
      exact (namesBehind_passed _ before hcolon hbracket).trans (ih hsegments _)
    | dynamic name =>
      refine (hslash before _).trans ((namesBehind_named _ hs hrest).trans ?_)
      rw [ih hsegments]
      rfl
    | catchAll optional name =>
      -- The star behind the name ends it, and is passed over.
      have hstar (before rest : List Char) :
          namesBehind before ('*' :: rest) = namesBehind ('*' :: before) rest :=
        namesBehind_passed ['*'] before (by decide) (by decide)
      have hnamed (rest : List Char) :
          namesBehind ('/' :: before) (':' :: (name ++ '*' :: rest)) =
            name :: namesBehind ((':' :: name).reverse ++ '/' :: before) ('*' :: rest) :=
        namesBehind_named _ hs parameterChars_star
      have hparts (rest : List Char) :
          behindSlash (Segment.catchAll optional name).route? ++ rest =
            '/' :: ':' :: (name ++ '*' :: rest) := by
        simp [behindSlash, Segment.route?]
      rw [hparts, hslash, hnamed, hstar, ih hsegments]
      rfl
    | group name => exact ih hsegments before

/-! ## Routes -/

/-- What a segment is in a route is a part of its own, and "index" only where it is written so. -/
theorem Segment.Plain.route (h : s.Plain) (hroute : s.route? = some text) :
    text ≠ [] ∧ '/' ∉ text ∧ (text = "index".toList → s = static "index".toList) := by
  cases s with
  | static written =>
    obtain rfl : written = text := Option.some.inj hroute
    exact ⟨h.1, h.notMem_static (by decide), congrArg static⟩
  | dynamic name =>
    obtain rfl : ':' :: name = text := Option.some.inj hroute
    have hslash := h.notMem '/' (by decide)
    exact ⟨List.cons_ne_nil _ _, by simpa using hslash, fun hindex => by simp at hindex⟩
  | catchAll optional name =>
    obtain rfl : ':' :: (name ++ ['*']) = text := Option.some.inj hroute
    have hslash := h.notMem '/' (by decide)
    exact ⟨List.cons_ne_nil _ _, by simpa using hslash, fun hindex => by simp at hindex⟩
  | group name => contradiction

/-- Only the segments that are no groups have a place in a route. -/
theorem filterMap_route_noGroup (segments : List Segment) :
    segments.filterMap Segment.route? =
      (segments.filter (!·.isGroup)).filterMap Segment.route? := by
  rw [List.filterMap_filter]
  refine congrArg (List.filterMap · segments) (funext fun s => ?_)
  cases s <;> rfl

/-- The parts of a route are left as they are by what is done at the end of a path. -/
theorem rooted_route (h : ∀ s ∈ segments, s.Plain)
    (hindex : (segments.filter (!·.isGroup)).getLast? ≠ some (.static "index".toList)) :
    rooted (segments.flatMap fun s => behindSlash s.route?) =
      '/' :: join ['/'] (segments.filterMap Segment.route?) := by
  rw [flatMap_route, filterMap_route_noGroup]
  obtain hnone | ⟨front, last, hlast⟩ := List.eq_nil_or_concat (segments.filter (!·.isGroup))
  · -- Without a part only the slash in front is left.
    rw [hnone]
    rfl
  · -- The last part is that of the last segment that is no group.
    have hmem : last ∈ segments.filter (!·.isGroup) := by
      rw [hlast, List.concat_eq_append]
      exact List.mem_append_right _ List.mem_cons_self
    obtain ⟨hsegment, hgroup⟩ := List.mem_filter.mp hmem
    obtain ⟨text, htext⟩ : ∃ text, last.route? = some text := by
      cases last with
      | static text => exact ⟨text, rfl⟩
      | dynamic name => exact ⟨':' :: name, rfl⟩
      | catchAll optional name => exact ⟨':' :: (name ++ ['*']), rfl⟩
      | group name => contradiction
    obtain ⟨hne, hslash, hname⟩ := (h last hsegment).route htext
    rw [hlast, List.concat_eq_append] at hindex ⊢
    have hkept : text ≠ "index".toList := by
      intro heq
      rw [hname heq, List.getLast?_concat] at hindex
      exact hindex rfl
    have hparts : (front ++ [last]).filterMap Segment.route? =
        front.filterMap Segment.route? ++ [text] := by
      rw [List.filterMap_append, List.filterMap_cons_some htext, List.filterMap_nil]
    rw [hparts, slash_join (by simp), List.flatMap_append, List.flatMap_singleton]
    refine rooted_eq_self ?_ hne hslash hkept
    cases front.filterMap Segment.route? <;> rfl

/-- **Routes are translated segment by segment.** Where the last segment that is no group is not
"index", the path of the route joins what its segments have become, and its parameters are those for
which they stand, in their order. -/
theorem routePath_segments (segments : List Segment) (hplain : ∀ s ∈ segments, s.Plain)
    (hindex : (segments.filter (!·.isGroup)).getLast? ≠ some (.static "index".toList)) :
    routePath ('/' :: join ['/'] (segments.map Segment.written)) =
        '/' :: join ['/'] (segments.filterMap Segment.route?) ∧
      pathParameters (routePath ('/' :: join ['/'] (segments.map Segment.written))) =
        (segments.filterMap Segment.parameter?).map fun name =>
          { name := String.ofList name, type := some "string" } := by
  have hpath : routePath ('/' :: join ['/'] (segments.map Segment.written)) =
      '/' :: join ['/'] (segments.filterMap Segment.route?) := by
    obtain rfl | hsome := eq_or_ne segments []
    · -- Without segments both sides are a single slash.
      decide
    · rw [slash_join (by simpa using hsome), List.flatMap_map, routePath_eq]
      exact (congrArg rooted (translated_segments hplain)).trans (rooted_route hplain hindex)
  have hnames : namesBehind [] ('/' :: join ['/'] (segments.filterMap Segment.route?)) =
      segments.filterMap Segment.parameter? := by
    rw [← parameters_route hplain [], flatMap_route]
    obtain hnone | hsome := eq_or_ne (segments.filterMap Segment.route?) []
    · -- The slash that stands for no segment names nothing.
      rw [hnone]
      decide
    · rw [slash_join hsome]
  refine ⟨hpath, ?_⟩
  rw [hpath, ← hnames]
  rfl

/-- A path with segments of every kind. -/
theorem routePath_users :
    routePath "/api/(v1)/users/[id]/[...slug]/[[...rest]]".toList =
        "/api/users/:id/:slug*/:rest*".toList ∧
      pathParameters (routePath "/api/(v1)/users/[id]/[...slug]/[[...rest]]".toList) = [
        { name := "id", type := some "string" },
        { name := "slug", type := some "string" },
        { name := "rest", type := some "string" }] :=
  routePath_segments [.static "api".toList, .group "v1".toList, .static "users".toList,
    .dynamic "id".toList, .catchAll false "slug".toList, .catchAll true "rest".toList]
    (by decide) (by decide)

-- A last segment "index" has no place in a route.
example : routePath "/users/index/(all)".toList = "/users".toList := by decide

end CodeSurvey.Extract
