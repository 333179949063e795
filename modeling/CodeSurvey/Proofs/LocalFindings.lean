import CodeSurvey.Proofs.AddedLine

/-!
# Findings are local

Apart from the rules that ask about the whole file, a rule looks at a line and at the lines around
it, up to the wider of the two distances, and it sees no more of them than the scanner does. So what
it reports on a line is decided by these, whatever else the file holds.

- `Vicinity`: a line and the lines around it, as they are seen.
- `Scanner.line_eq_vicinity`, `Scanner.window_eq_vicinity`: what is seen at a place.
- `isLocal_of_mem_rules`: the rules that ask about no more than that.
- `Scanner.holds_congr`, `Scanner.exists_finding_congr`: places with the same vicinity.
- `Scanner.findings_local`: what is reported in two texts.
-/

namespace CodeSurvey

open Text

namespace Security

/-! ## Vicinities -/

/-- A line among lines around it. -/
structure Vicinity where
  lines : List (List Char)
  /-- The place of the line among them. -/
  index : Nat
  deriving Repr, DecidableEq

/-- The line itself. -/
def Vicinity.line (v : Vicinity) : List Char :=
  v.lines.getD v.index []

/-- The line with those around it up to a distance, joined by line feeds. -/
def Vicinity.window (v : Vicinity) (radius : Nat) : List Char :=
  join ['\n'] (between v.lines (v.index - radius) (v.index + radius + 1))

/-- What is seen of a line and of those around it up to a distance. -/
def Scanner.vicinity (s : Scanner) (text : List Char) (index radius : Nat) : Vicinity :=
  ⟨between ((lines text).map s.seen) (index - radius) (index + radius + 1), min index radius⟩

variable {s : Scanner} {text text' : List Char} {index index' radius : Nat}

/-- At its place in the vicinity stands what is seen of the line, if there is one. -/
theorem Scanner.getElem?_vicinity (s : Scanner) (text : List Char) (index radius : Nat) :
    (s.vicinity text index radius).lines[(s.vicinity text index radius).index]? =
      ((lines text).map s.seen)[index]? := by
  -- The vicinity begins as far in front of the line as the place of the line in it says.
  have hplace : index - radius + min index radius = index := by omega
  have hinside : min index radius < index + radius + 1 - (index - radius) := by omega
  simp only [Scanner.vicinity, between]
  rw [List.getElem?_take_of_lt hinside, List.getElem?_drop, hplace]

theorem Scanner.line_eq_vicinity (s : Scanner) (path : String) (text : List Char)
    (index radius : Nat) :
    (Place.mk (s.fileOf path text) index).line = (s.vicinity text index radius).line := by
  rw [Vicinity.line, List.getD_eq_getElem?_getD, s.getElem?_vicinity, Place.line, fileOf_lines]
  simp

/-- The lines up to a smaller distance stand in the vicinity. -/
theorem Scanner.window_eq_vicinity (s : Scanner) (path : String) (text : List Char) (index : Nat)
    {distance : Nat} (h : distance ≤ radius) :
    (Place.mk (s.fileOf path text) index).window distance =
      (s.vicinity text index radius).window distance := by
  have hstart : index - radius + (min index radius - distance) = index - distance := by omega
  have hstop : index - radius + (min index radius + distance + 1) = index + distance + 1 := by
    omega
  have hinside : index - radius + (min index radius + distance + 1) ≤ index + radius + 1 := by
    omega
  rw [Vicinity.window, Scanner.vicinity, between_between _ hinside, hstart, hstop, Place.window,
    fileOf_lines]
  exact congrArg (join ['\n']) (cut_around _ index distance)

/-- Where the vicinities are the same, both places are lines of their texts, or neither is. -/
theorem Scanner.lt_length_congr
    (hsame : s.vicinity text index radius = s.vicinity text' index' radius)
    (hindex : index < (lines text).length) : index' < (lines text').length := by
  have hline := s.getElem?_vicinity text index radius
  rw [hsame, s.getElem?_vicinity] at hline
  -- Otherwise there would be a line at one of the two places only.
  by_contra hbeyond
  rw [not_lt, ← List.length_map s.seen] at hbeyond
  rw [← List.length_map s.seen] at hindex
  rw [List.getElem?_eq_none hbeyond, List.getElem?_eq_getElem hindex] at hline
  contradiction

/-- Where the vicinities are the same, the same is seen of the lines. -/
theorem Scanner.line_congr (path : String)
    (hsame : s.vicinity text index radius = s.vicinity text' index' radius) :
    (Place.mk (s.fileOf path text) index).line = (Place.mk (s.fileOf path text') index').line := by
  rw [s.line_eq_vicinity path text index radius, hsame, ← s.line_eq_vicinity]

/-- Nor do they differ in what is seen up to a smaller distance. -/
theorem Scanner.window_congr (path : String)
    (hsame : s.vicinity text index radius = s.vicinity text' index' radius) {distance : Nat}
    (h : distance ≤ radius) :
    (Place.mk (s.fileOf path text) index).window distance =
      (Place.mk (s.fileOf path text') index').window distance := by
  rw [s.window_eq_vicinity path text index h, hsame, ← s.window_eq_vicinity path text' index' h]

/-! ## Conditions -/

/-- The wider of the two distances. -/
def Radii.widest (radii : Radii) : Nat :=
  (max radii.near radii.wide).toNat

theorem Radii.Natural.le_widest {radii : Radii} (h : radii.Natural) (reach : Reach) :
    ∃ distance : Nat, radii.of reach = distance ∧ distance ≤ radii.widest := by
  obtain ⟨distance, hdistance⟩ := Int.eq_ofNat_of_zero_le (h reach)
  refine ⟨distance, hdistance, ?_⟩
  have hle : radii.of reach ≤ max radii.near radii.wide := by
    cases reach with
    | near => exact le_max_left _ _
    | wide => exact le_max_right _ _
  rw [Radii.widest]
  omega

/-- Whether a condition asks about no more than the surroundings of a line. -/
def Condition.isLocal : Condition → Bool
  | never | onLine _ | around _ _ | lacksAround _ _ => true
  | inFile _ | fileProtected => false
  | either c d => c.isLocal && d.isLocal

/-- Two rules ask about the whole file, and no other does. -/
theorem isLocal_of_mem_rules :
    ∀ r ∈ rules, r.id ≠ "SEC020" → r.id ≠ "SEC021" → r.mitigation.isLocal = true := by
  decide +kernel

/-- **Conditions are local.** A condition that asks about the surroundings of a line only holds of
two lines alike, if these are the same up to the wider distance. The induction is on the
condition. -/
theorem Scanner.holds_congr (path : String) (hradii : s.outlook.radii.Natural)
    (hsame : s.vicinity text index s.outlook.radii.widest =
      s.vicinity text' index' s.outlook.radii.widest) {c : Condition} (hlocal : c.isLocal = true) :
    c.holds s.outlook ⟨s.fileOf path text, index⟩ =
      c.holds s.outlook ⟨s.fileOf path text', index'⟩ := by
  have hwindow (reach : Reach) :
      (Place.mk (s.fileOf path text) index).window (s.outlook.radii.of reach) =
        (Place.mk (s.fileOf path text') index').window (s.outlook.radii.of reach) := by
    obtain ⟨distance, hdistance, hle⟩ := hradii.le_widest reach
    rw [hdistance, s.window_congr path hsame hle]
  induction c with
  | never => rfl
  | onLine markers =>
    rw [Condition.holds, Condition.holds, s.line_congr path hsame]
  | inFile markers => contradiction
  | around markers reach => rw [Condition.holds, Condition.holds, hwindow]
  | lacksAround markers reach => rw [Condition.holds, Condition.holds, hwindow]
  | fileProtected => contradiction
  | either c d ihc ihd =>
    rw [Condition.isLocal, Bool.and_eq_true] at hlocal
    rw [Condition.holds, Condition.holds, ihc hlocal.1, ihd hlocal.2]

/-! ## Findings -/

theorem Scanner.reports_congr (path : String) (hradii : s.outlook.radii.Natural)
    (hsame : s.vicinity text index s.outlook.radii.widest =
      s.vicinity text' index' s.outlook.radii.widest) {r : Rule}
    (hlocal : r.mitigation.isLocal = true) :
    r.reports s.outlook ⟨s.fileOf path text, index⟩ =
      r.reports s.outlook ⟨s.fileOf path text', index'⟩ := by
  rw [Rule.reports, Rule.reports, s.line_congr path hsame, s.holds_congr path hradii hsame hlocal]

/-- What a rule reports on a line of one text, it reports on the line of the other. -/
theorem Scanner.exists_finding_congr {path : String} (hradii : s.outlook.radii.Natural)
    (hsame : s.vicinity text index s.outlook.radii.widest =
      s.vicinity text' index' s.outlook.radii.widest) {r : Rule}
    (hlocal : r.mitigation.isLocal = true) {code : String}
    (h : ∃ f ∈ s.scan path text, f.rule = r ∧ f.line = index + 1 ∧ f.code = code) :
    ∃ f ∈ s.scan path text', f.rule = r ∧ f.line = index' + 1 ∧ f.code = code := by
  obtain ⟨f, hf, hrule, hline, hcode⟩ := h
  obtain ⟨henabled, place, hplace, r', hr', hcovers, hfinding⟩ := mem_scan_iff.mp hf
  obtain ⟨hreports, rfl⟩ := finding?_eq_some_iff.mp hfinding
  obtain rfl : r' = r := hrule
  obtain rfl : place = index := Nat.succ.inj hline
  -- The same is seen of the line, so the rule reports it and shows the same part of it.
  rw [s.reports_congr path hradii hsame hlocal] at hreports
  refine ⟨_, mem_scan_iff.mpr ⟨henabled, index', s.lt_length_congr hsame hplace, r', hr', hcovers,
    finding?_eq_some_iff.mpr ⟨hreports, rfl⟩⟩, rfl, rfl, ?_⟩
  rw [← hcode, s.line_congr path hsame]

/-- **Findings are local.** Where the same is seen of two lines and of those around them, up to the
wider distance, a rule that does not ask about the whole file reports both of them or neither, and
it shows the same of them. -/
theorem Scanner.findings_local {s : Scanner} (hradii : s.outlook.radii.Natural) (path : String)
    {text text' : List Char} {index index' : Nat}
    (hsame : s.vicinity text index s.outlook.radii.widest =
      s.vicinity text' index' s.outlook.radii.widest) {r : Rule} (hr : r ∈ Security.rules)
    (hauth : r.id ≠ "SEC020") (hlimit : r.id ≠ "SEC021") (code : String) :
    (∃ f ∈ s.scan path text, f.rule = r ∧ f.line = index + 1 ∧ f.code = code) ↔
      ∃ f ∈ s.scan path text', f.rule = r ∧ f.line = index' + 1 ∧ f.code = code := by
  have hlocal := isLocal_of_mem_rules r hr hauth hlimit
  exact ⟨exists_finding_congr hradii hsame hlocal, exists_finding_congr hradii hsame.symm hlocal⟩

/-- A scanner that sees the beginnings of lines and of their neighbors. -/
def Scanner.narrow : Scanner :=
  { Scanner.standard with
    longestLine := some 12
    outlook := { Scanner.standard.outlook with radii := ⟨0, 1⟩ } }

/-- Code that is run from a text is reported in either of two files, on different lines. They differ
further away and behind what is seen of the line. -/
theorem Scanner.findings_local_evaluation :
    (∃ f ∈ Scanner.narrow.scan "src/a.ts" "a\neval(text); // once\nb".toList,
      f.rule = codeFromText ∧ f.line = 2 ∧ f.code = "eval(text);") ∧
    ∃ f ∈ Scanner.narrow.scan "src/a.ts" "import c\na\neval(text); // again\nb\n".toList,
      f.rule = codeFromText ∧ f.line = 3 ∧ f.code = "eval(text);" := by
  have hfirst : ∃ f ∈ Scanner.narrow.scan "src/a.ts" "a\neval(text); // once\nb".toList,
      f.rule = codeFromText ∧ f.line = 2 ∧ f.code = "eval(text);" := by
    decide +kernel
  have hradii : Scanner.narrow.outlook.radii.Natural := by
    rintro (_ | _) <;> decide
  refine ⟨hfirst, (Scanner.findings_local hradii "src/a.ts" ?_ ?_ ?_ ?_ _).mp hfirst⟩
  · decide +kernel
  · decide +kernel
  · decide
  · decide

end Security

end CodeSurvey
