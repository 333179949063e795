import CodeSurvey.Extract.Routes
import CodeSurvey.Proofs.LineFeeds
import CodeSurvey.Proofs.RouteSegments

/-!
# Paths of route files

A route file lies below "api". Outside the directory of an application the path that it answers is
what its own path says from there on. Whether the file is a route file is asked of its path in lower
case, but "api" is looked for in the path as it is written.

- `search?_appRouterPattern`: outside the directory of an application.
- `exists_apiParts`: what lies between "api" and the file.
- `atSlash_withoutGroups`, `exists_routePath_api`: "api" is left in front when a path is translated.
- `appRouterPath_api`: which route files answer below "api".
- `appRouterPath_capital`: a route file that does not.
-/

namespace CodeSurvey.Text

/-! ## Parts between characters -/

/-- The parts of a text, each behind the character at which the text is split. -/
theorem flatMap_splitAt (c : Char) (text : List Char) :
    (splitAt c text).flatMap (c :: ·) = c :: text := by
  induction text with
  | nil => rfl
  | cons d rest ih =>
    obtain ⟨part, parts, hparts⟩ := List.exists_cons_of_ne_nil (splitAt_ne_nil c rest)
    rw [hparts, List.flatMap_cons] at ih
    rw [splitAt_cons, hparts]
    split
    · rename_i heq
      rw [beq_iff_eq] at heq
      rw [List.flatMap_cons, List.flatMap_cons, ih, heq]
      rfl
    · simpa using ih

/-- The parts do not hold the character. -/
theorem notMem_of_mem_splitAt {c : Char} {text part : List Char} (h : part ∈ splitAt c text) :
    c ∉ part := by
  induction text generalizing part with
  | nil =>
    obtain rfl := List.mem_singleton.mp h
    exact List.not_mem_nil
  | cons d rest ih =>
    obtain ⟨first, others, hparts⟩ := List.exists_cons_of_ne_nil (splitAt_ne_nil c rest)
    rw [splitAt_cons, hparts] at h
    rw [hparts] at ih
    split at h
    · rcases List.mem_cons.mp h with rfl | hrest
      · exact List.not_mem_nil
      · exact ih hrest
    · rename_i hne
      rcases List.mem_cons.mp h with rfl | hrest
      · rw [List.mem_cons, not_or]
        exact ⟨fun heq => hne (by simp [heq]), ih List.mem_cons_self⟩
      · exact ih (List.mem_cons_of_mem _ hrest)

/-- Where a text is found, it stands. -/
theorem exists_of_indexOf? {needle text : List Char} {place : Nat}
    (h : indexOf? needle text = some place) :
    ∃ front back, text = front ++ (needle ++ back) ∧ front.length = place := by
  induction text generalizing place with
  | nil =>
    rw [indexOf?] at h
    split at h
    · rename_i hempty
      exact ⟨[], [], by simp [List.isEmpty_iff.mp hempty], Option.some.inj h⟩
    · contradiction
  | cons c rest ih =>
    rw [indexOf?] at h
    split at h
    · rename_i hstart
      obtain ⟨back, hback⟩ := List.isPrefixOf_iff_prefix.mp hstart
      exact ⟨[], back, hback.symm, Option.some.inj h⟩
    · obtain ⟨earlier, hearlier, rfl⟩ := Option.map_eq_some_iff.mp h
      obtain ⟨front, back, rfl, rfl⟩ := ih hearlier
      exact ⟨c :: front, back, rfl, rfl⟩

/-- A character behind which it does not stand again stands there for the last time. -/
theorem lastIndexOf?_append_cons {c : Char} {rest : List Char} (h : c ∉ rest)
    (before : List Char) : lastIndexOf? c (before ++ c :: rest) = some before.length := by
  have hnone : rest.reverse.findIdx? (· == c) = none := by
    rw [List.findIdx?_eq_none_iff]
    intro d hd
    exact beq_false_of_ne fun heq => h (heq ▸ List.mem_reverse.mp hd)
  rw [lastIndexOf?, List.reverse_append, List.reverse_cons, List.append_assoc,
    List.findIdx?_append, hnone]
  simp [List.findIdx?_cons]

/-- A place in a text, or its start, lies in front of its end. -/
theorem lastIndexOf?_lt {text : List Char} (hne : text ≠ []) (c : Char) :
    (lastIndexOf? c text).getD 0 < text.length := by
  have hlength := List.length_pos_of_ne_nil hne
  rw [lastIndexOf?]
  cases text.reverse.findIdx? (· == c) with
  | none => exact hlength
  | some i =>
    rw [Option.map_some, Option.getD_some]
    omega

end CodeSurvey.Text

namespace CodeSurvey.Extract

open Text Pattern

variable {path rest text : List Char} {parts : List (List Char)}

/-! ## Outside the directory of an application -/

/-- Outside the directory of an application there is no path from it. -/
theorem search?_appRouterPattern (hslash : path.head? = some '/')
    (happ : contains path "/app/".toList = false) : appRouterPattern.search? path = none := by
  by_contra hsome
  obtain ⟨m, hm⟩ := Option.ne_none_iff_exists'.mp hsome
  obtain ⟨s, t, hwithin, -, hreads, -⟩ := (matches_of_search? hm).exists_reads
  -- A match would read the name of the directory and a slash behind it.
  obtain ⟨-, ⟨-, ⟨-, ⟨u, ⟨v, hstart, hword⟩, w, ⟨x, hbehind, -⟩, -⟩, -⟩, -⟩, -⟩ := hreads
  have hafter : v.after = "app/".toList ++ x.after := by
    rw [(passes_of_reads_lit hword).after, (passes_of_reads_lit hbehind).after]
    rfl
  rcases hstart with ⟨htext, rfl⟩ | hstart
  · -- The path begins with a slash.
    have hnone : v.before = [] := List.isEmpty_iff.mp htext
    rw [hwithin.parts, hnone, hafter] at hslash
    have hletter : 'a' = '/' := Option.some.inj hslash
    exact absurd hletter (by decide)
  · rw [← Bool.not_eq_true, contains_iff_infix] at happ
    refine happ ⟨s.before.reverse, x.after, ?_⟩
    rw [hwithin.parts, (passes_of_reads_lit hstart).after, hafter, List.append_assoc]
    rfl

/-! ## Groups -/

/-- Where a segment begins with a parenthesis, it is a group as a whole, or nothing in it closes the
parenthesis. -/
def WholeGroups (parts : List (List Char)) : Prop :=
  ∀ part ∈ parts, part.head? = some '(' → ')' ∉ part.dropLast

instance (parts : List (List Char)) : Decidable (WholeGroups parts) :=
  inferInstanceAs (Decidable (∀ part ∈ parts, part.head? = some '(' → ')' ∉ part.dropLast))

/-- Without a closing parenthesis a segment is no group. -/
theorem refuses_unclosed (hclose : ')' ∉ text) (hrest : AtSlash rest) :
    groupSegment.Refuses ('/' :: (text ++ rest)) := by
  apply refuses_of_not_reads
  rintro before offset kept t ⟨u, ⟨v, hfront, hname⟩, hback⟩
  obtain ⟨name, hpasses⟩ := hname.exists_passes
  have hslash : '/' ∉ '(' :: name := by
    have hchars : ∀ c ∈ name, (CharSet.compl (.char '/')).mem c = true := fun c hc =>
      mem_of_throughout (by decide) hname hpasses hc
    rw [List.mem_cons, not_or]
    exact ⟨by decide, fun hmem => absurd (hchars '/' hmem) (by decide)⟩
  have hread : text ++ rest = ('(' :: name) ++ ')' :: t.after := by
    have hwhole := (passes_of_reads_lit hfront).trans (hpasses.trans (passes_of_reads_lit hback))
    simpa using hwhole.after
  -- The parenthesis that is read stands in the text or behind a slash.
  rcases List.append_eq_append_iff.mp hread with ⟨others, hparts, hmore⟩ | ⟨others, hparts, hmore⟩
  · cases others with
    | nil => exact absurd (hrest ')' (by rw [hmore]; rfl)) (by decide)
    | cons c others =>
      obtain rfl := hrest c (by rw [hmore]; rfl)
      exact hslash (by rw [hparts]; simp)
  · cases others with
    | nil => exact absurd (hrest ')' (by rw [← List.nil_append rest, ← hmore]; rfl)) (by decide)
    | cons c others =>
      obtain ⟨rfl, -⟩ := List.cons.inj hmore
      exact hclose (by rw [hparts]; simp)

/-- A segment with both parentheses is a group. -/
theorem exists_group {part : List Char} (hwhole : part.head? = some '(' → ')' ∉ part.dropLast)
    (hopen : part.head? = some '(') (hclose : ')' ∈ part) (hslash : '/' ∉ part) :
    ∃ name, part = (Segment.group name).written ∧ (Segment.group name).Plain := by
  obtain ⟨others, rfl⟩ := List.head?_eq_some_iff.mp hopen
  obtain rfl | ⟨name, last, rfl⟩ := List.eq_nil_or_concat others
  · exact absurd hclose (by decide)
  · have hinside := hwhole rfl
    rw [List.concat_eq_append, ← List.cons_append] at hinside hclose hslash
    rw [List.dropLast_concat] at hinside
    -- It closes at its end, since it does not close before.
    obtain hearly | hlast := List.mem_append.mp hclose
    · exact absurd hearly hinside
    obtain rfl := List.mem_singleton.mp hlast
    refine ⟨name, by rw [List.concat_eq_append]; rfl, fun c hc hmark => ?_⟩
    simp only [String.reduceToList, List.mem_cons, List.not_mem_nil, or_false] at hmark
    rcases hmark with rfl | rfl
    · exact hslash (List.mem_append_left _ (List.mem_cons_of_mem _ hc))
    · exact hinside (List.mem_cons_of_mem _ hc)

theorem atSlash_parts (parts : List (List Char)) : AtSlash (parts.flatMap ('/' :: ·)) := by
  cases parts with
  | nil => exact atSlash_nil
  | cons part parts => exact atSlash_cons _

/-- When groups are taken away, what is left begins with a slash. The induction is on the segments:
groups in front vanish, and the first other segment keeps its slash. -/
theorem atSlash_withoutGroups (hslash : ∀ part ∈ parts, '/' ∉ part) (hwhole : WholeGroups parts)
    (before : List Char) :
    AtSlash (groupSegment.replacedBehind (fun _ => []) before (parts.flatMap ('/' :: ·))) := by
  induction parts generalizing before with
  | nil =>
    rw [List.flatMap_nil, replacedBehind_nil groupSegment_reads]
    exact atSlash_nil
  | cons part parts ih =>
    obtain ⟨hpart, hparts⟩ := List.forall_mem_cons.mp hslash
    obtain ⟨hfirst, hothers⟩ := List.forall_mem_cons.mp hwhole
    have hbehind := atSlash_parts parts
    rw [List.flatMap_cons]
    by_cases hopen : part.head? = some '('
    · by_cases hclose : ')' ∈ part
      · obtain ⟨name, rfl, hplain⟩ := exists_group hfirst hopen hclose hpart
        have hgone := hplain.rewrites_groups (parts.flatMap ('/' :: ·)) before
        exact hgone ▸ ih hparts hothers _
      · have hrefuses := refuses_unclosed hclose hbehind
        rw [List.cons_append, replacedBehind_of_refuses groupSegment_reads hrefuses]
        exact atSlash_cons _
    · have hhead : (part ++ parts.flatMap ('/' :: ·)).head? ≠ some '(' := by
        cases part with
        | nil => exact fun hhead => absurd (hbehind '(' hhead) (by decide)
        | cons c others => exact hopen
      rw [List.cons_append, replacedBehind_of_refuses groupSegment_reads (refuses_noGroup hhead)]
      exact atSlash_cons _

/-! ## The first segment -/

theorem AtSlash.of_prefix (h : AtSlash rest) (hfront : text <+: rest) : AtSlash text := by
  intro c hc
  obtain ⟨others, rfl⟩ := List.head?_eq_some_iff.mp hc
  obtain ⟨more, rfl⟩ := hfront
  exact h c rfl

/-- A replacement of something in brackets leaves a front without brackets, and the slash behind
it. -/
theorem exists_replaceAll {p : Pattern} {front : List Char} (f : Match → List Char)
    (hreads : p.surely (fun _ => true) = true) (hopens : p.opens (·.within (.char '[')) = true)
    (hfront : '[' ∉ front) (hrest : AtSlash rest) :
    ∃ others, AtSlash others ∧ p.replaceAll f (front ++ rest) = front ++ others := by
  refine ⟨p.replacedBehind f (front.reverse ++ []) rest, ?_,
    rewrites_of_notMem hreads hopens hfront f rest []⟩
  cases rest with
  | nil =>
    rw [replacedBehind_nil hreads]
    exact atSlash_nil
  | cons c rest =>
    obtain rfl := hrest c rfl
    rw [replacedBehind_of_refuses hreads (refuses_slash hreads hopens rest)]
    exact atSlash_cons _

/-- What ends with "/index" behind another first segment ends so behind that segment. -/
theorem exists_of_index_suffix {name : List Char} (hname : '/' ∉ name)
    (hindex : name ≠ "index".toList) (hrest : AtSlash rest)
    (h : "/index".toList <:+ '/' :: name ++ rest) : ∃ others, rest = others ++ "/index".toList := by
  obtain ⟨front, hparts⟩ := h
  have hsplit : "/index".toList = '/' :: "index".toList := rfl
  rw [hsplit] at hparts ⊢
  rcases List.append_eq_append_iff.mp hparts with ⟨overlap, hfirst, hover⟩ | ⟨others, -, hothers⟩
  · cases overlap with
    | nil => exact ⟨[], hover.symm⟩
    | cons c overlap =>
      obtain ⟨rfl, hletters⟩ := List.cons.inj hover
      cases front with
      | nil =>
        -- Then the first segment would begin "index", and nothing behind it a slash.
        obtain rfl : name = overlap := (List.cons.inj hfirst).2
        cases rest with
        | nil =>
          exact absurd (hletters.trans (List.append_nil name)).symm hindex
        | cons c rest =>
          obtain rfl := hrest c rfl
          have hmem : '/' ∈ "index".toList := by
            rw [hletters]
            exact List.mem_append_right _ List.mem_cons_self
          exact absurd hmem (by decide)
      | cons d front => exact absurd (by rw [(List.cons.inj hfirst).2]; simp) hname
  · exact ⟨others, hothers⟩

/-- A first segment other than "index" is left by what is done at the end of a path. -/
theorem exists_rooted {name : List Char} (hne : name ≠ []) (hname : '/' ∉ name)
    (hindex : name ≠ "index".toList) (hrest : AtSlash rest) :
    ∃ others, AtSlash others ∧ rooted ('/' :: name ++ rest) = '/' :: name ++ others := by
  -- A last segment "index" is taken away first, then slashes are.
  obtain ⟨kept, hkept, hcut⟩ : ∃ kept, AtSlash kept ∧
      (if endsWith ('/' :: name ++ rest) "/index".toList
        then ('/' :: name ++ rest).take (('/' :: name ++ rest).length - "/index".toList.length)
        else '/' :: name ++ rest) = '/' :: name ++ kept := by
    split
    · rename_i hends
      obtain ⟨others, rfl⟩ := exists_of_index_suffix hname hindex hrest
        (List.isSuffixOf_iff_suffix.mp hends)
      refine ⟨others, hrest.of_prefix (List.prefix_append _ _), ?_⟩
      rw [← List.append_assoc, List.length_append, Nat.add_sub_cancel, List.take_left]
    · exact ⟨rest, hrest, rfl⟩
  obtain ⟨last, hlast⟩ := Option.ne_none_iff_exists'.mp (mt List.getLast?_eq_none_iff.mp hne)
  have hend : ('/' :: name).getLast? = some last := by
    rw [List.getLast?_cons, hlast]
    rfl
  have hletter : (last == '/') = false :=
    beq_false_of_ne fun heq => hname (heq ▸ List.mem_of_getLast? hlast)
  refine ⟨dropEndWhile (· == '/') kept, hkept.of_prefix ?_, ?_⟩
  · exact List.rdropWhile_prefix _ _
  · rw [rooted]
    simp only [hcut]
    rw [dropEndWhile_append hend hletter]
    rfl

/-! ## Paths below "api" -/

/-- **Below "api".** A path whose first segment is "api" leads to a route with the same first
segment. -/
theorem exists_routePath_api (hslash : ∀ part ∈ parts, '/' ∉ part) (hwhole : WholeGroups parts) :
    ∃ others, AtSlash others ∧
      routePath ("/api".toList ++ parts.flatMap ('/' :: ·)) = "/api".toList ++ others := by
  -- The first segment is kept by each replacement, and what is left behind it begins with a slash.
  have hkept : groupSegment.replaceAll (fun _ => []) ("/api".toList ++ parts.flatMap ('/' :: ·)) =
      "/api".toList ++ groupSegment.replacedBehind (fun _ => []) ("/api".toList.reverse ++ [])
        (parts.flatMap ('/' :: ·)) :=
    rewrites_noGroup (by decide : '/' ∉ "api".toList) (by simp) []
  have hgroups := atSlash_withoutGroups hslash hwhole ("/api".toList.reverse ++ [])
  obtain ⟨first, hfirst, hcatchAlls⟩ :=
    exists_replaceAll (fun m => ':' :: (m.group? "name").getD [] ++ ['*']) catchAllSegment_reads
      catchAllSegment_opens (by decide : '[' ∉ "/api".toList) hgroups
  obtain ⟨second, hsecond, hnames⟩ :=
    exists_replaceAll (fun m => ':' :: (m.group? "name").getD []) dynamicSegment_reads
      dynamicSegment_opens (by decide : '[' ∉ "/api".toList) hfirst
  obtain ⟨others, hothers, hroot⟩ :=
    exists_rooted (by decide) (by decide : '/' ∉ "api".toList) (by decide) hsecond
  refine ⟨others, hothers, ?_⟩
  rw [routePath_eq, translated, hkept, hcatchAlls, hnames]
  exact hroot

/-- What lies between "api" and the file. -/
theorem exists_apiParts (h : contains path "/api/".toList = true) :
    ∃ (front : List Char) (parts : List (List Char)) (file : List Char),
      path = front ++ (("/api".toList ++ parts.flatMap ('/' :: ·)) ++ '/' :: file) ∧
      indexOf? "/api/".toList path = some front.length ∧ '/' ∉ file ∧
      ∀ part ∈ parts, part ∈ splitAt '/' path := by
  obtain ⟨place, hplace⟩ := Option.isSome_iff_exists.mp h
  obtain ⟨front, back, rfl, rfl⟩ := exists_of_indexOf? hplace
  obtain hnone | ⟨parts, file, hparts⟩ := List.eq_nil_or_concat (splitAt '/' back)
  · exact absurd hnone (splitAt_ne_nil '/' back)
  · -- The last part of what stands behind "api" is the file.
    rw [List.concat_eq_append] at hparts
    have hback : '/' :: back = parts.flatMap ('/' :: ·) ++ '/' :: file := by
      rw [← flatMap_splitAt, hparts, List.flatMap_append, List.flatMap_singleton]
    have hfile : file ∈ splitAt '/' back := by simp [hparts]
    have hpath : front ++ ("/api/".toList ++ back) = (front ++ "/api".toList) ++ '/' :: back := by
      simp
    refine ⟨front, parts, file, ?_, hplace, notMem_of_mem_splitAt hfile, fun part hpart => ?_⟩
    · rw [hpath, hback, List.append_assoc, List.append_assoc]
    · rw [hpath, splitAt_append_cons, hparts]
      exact List.mem_append_right _ (List.mem_append_left _ hpart)

theorem head?_anchored (path : List Char) : (Files.anchored path).head? = some '/' := by
  rw [Files.anchored]
  split
  · rename_i hhead
    exact eq_of_beq hhead
  · rfl

/-- A path in which "api" is not found as it is written leads nowhere: nothing is left of it in
front of its last slash. -/
theorem appRouterPath_of_no_api {filePath : List Char}
    (happ : contains (Files.anchored filePath) "/app/".toList = false)
    (hapi : contains (Files.anchored filePath) "/api/".toList = false) :
    appRouterPath filePath = ['/'] := by
  have hnone : indexOf? "/api/".toList (Files.anchored filePath) = none :=
    Option.not_isSome_iff_eq_none.mp (ne_true_of_eq_false hapi)
  have hne : Files.anchored filePath ≠ [] := fun hnil => by
    have hslash := head?_anchored filePath
    rw [hnil] at hslash
    contradiction
  rw [appRouterPath, search?_appRouterPattern (head?_anchored filePath) happ]
  simp only [Option.bind_none, hnone, cut_from_last (lastIndexOf?_lt hne '/')]
  decide

/-- A path in which "api" is found leads there. -/
theorem exists_appRouterPath_api {filePath : List Char}
    (happ : contains (Files.anchored filePath) "/app/".toList = false)
    (hapi : contains (Files.anchored filePath) "/api/".toList = true)
    (hwhole : WholeGroups (splitAt '/' (Files.anchored filePath))) :
    ∃ others, AtSlash others ∧ appRouterPath filePath = "/api".toList ++ others := by
  obtain ⟨front, parts, file, hpath, hplace, hfile, hparts⟩ := exists_apiParts hapi
  have hlast : lastIndexOf? '/' (Files.anchored filePath) =
      some (front.length + ("/api".toList ++ parts.flatMap ('/' :: ·)).length) := by
    rw [hpath, ← List.append_assoc, lastIndexOf?_append_cons hfile, List.length_append]
  have hcut : cut (Files.anchored filePath) front.length
      (front.length + ("/api".toList ++ parts.flatMap ('/' :: ·)).length : Nat) =
        "/api".toList ++ parts.flatMap ('/' :: ·) := by
    rw [cut_ofNat, hpath, between_append]
  rw [appRouterPath, search?_appRouterPattern (head?_anchored filePath) happ]
  simp only [Option.bind_none, hplace, hlast, Option.getD_some, hcut]
  exact exists_routePath_api (fun part hpart => notMem_of_mem_splitAt (hparts part hpart))
    fun part hpart => hwhole part (hparts part hpart)

/-- **Files below "api".** Outside the directory of an application a file answers below "api" if
"api" is found in its path as it is written, and only then. Without it the path that the file
answers is that of the root. -/
theorem appRouterPath_api {filePath : List Char}
    (happ : contains (Files.anchored filePath) "/app/".toList = false)
    (hwhole : WholeGroups (splitAt '/' (Files.anchored filePath))) :
    ((∃ segment ∈ splitAt '/' (appRouterPath filePath), lower segment = "api".toList) ↔
        contains (Files.anchored filePath) "/api/".toList = true) ∧
      (contains (Files.anchored filePath) "/api/".toList = false →
        appRouterPath filePath = ['/']) := by
  refine ⟨⟨fun ⟨segment, hsegment, hletters⟩ => ?_, fun hapi => ?_⟩, appRouterPath_of_no_api happ⟩
  · by_contra hapi
    rw [Bool.not_eq_true] at hapi
    rw [appRouterPath_of_no_api happ hapi] at hsegment
    -- The root has empty segments only.
    have hempty : segment = [] := by simpa [splitAt] using hsegment
    rw [hempty] at hletters
    exact absurd hletters (by decide)
  · obtain ⟨others, hothers, hroute⟩ := exists_appRouterPath_api happ hapi hwhole
    refine ⟨"api".toList, ?_, by decide⟩
    rw [hroute]
    cases others with
    | nil => decide
    | cons c others =>
      obtain rfl := hothers c rfl
      rw [splitAt_append_cons]
      exact List.mem_append_left _ (by decide)

/-- Groups and parameters below "api". -/
theorem appRouterPath_users :
    ∃ segment ∈ splitAt '/' (appRouterPath "src/api/(v1)/users/[id]/route.ts".toList),
      lower segment = "api".toList :=
  (appRouterPath_api (by decide) (by decide)).1.mpr (by decide)

/-- **Capital letters.** A route file outside the directory of an application, in whose path "api"
is written in capital letters, answers the root and not below "api". -/
theorem appRouterPath_capital :
    isRouteFile (Files.anchoredLower "src/API/users/route.ts".toList) = true ∧
      contains (Files.anchoredLower "src/API/users/route.ts".toList) "/app/".toList = false ∧
      appRouterPath "src/API/users/route.ts".toList = ['/'] ∧
      ¬∃ segment ∈ splitAt '/' (appRouterPath "src/API/users/route.ts".toList),
        lower segment = "api".toList := by
  decide +kernel

-- A group that is only the beginning of a segment vanishes with the slash before it.
example : appRouterPath "src/api/(v1)x/route.ts".toList = "/apix".toList := by decide +kernel

end CodeSurvey.Extract
