import CodeSurvey.Environment.Variables
import CodeSurvey.Proofs.StableSort

/-!
# Tables of variables

The records of variables are settled by which reads there are and which names each environment file
declares. How often something is read or declared, and in which order, makes no difference.

- `Table`: what the records of all variables say, in order.
- `table_variablesOf`, `Table.eq`: the records make such a table, and there is no other.
- `variablesOf_congr`: the same reads and declarations come to the same records.
- `variablesOf_settled`: both together.
-/

namespace CodeSurvey.Environment

open Text

variable {usages usages' : List Usage} {declarations declarations' : Declarations}
  {vs vs' : List Variable}

/-! ## Tables -/

/-- An environment file at the path declares the name. -/
def Declares (declarations : Declarations) (path name : String) : Prop :=
  ∃ d ∈ declarations, d.1 = path ∧ name ∈ d.2

/-- One record for each name that is read or declared, in the order of the names. -/
structure Table (usages : List Usage) (declarations : Declarations) (vs : List Variable) :
    Prop where
  increasing : (vs.map (·.name)).Pairwise (· < ·)
  names : ∀ name, name ∈ vs.map (·.name) ↔
    (∃ u ∈ usages, u.name = name) ∨ ∃ path, Declares declarations path name
  usedIn_increasing : ∀ v ∈ vs, v.usedIn.Pairwise (· < ·)
  usedIn : ∀ v ∈ vs, ∀ path, path ∈ v.usedIn ↔ ∃ u ∈ usages, u.name = v.name ∧ u.filePath = path
  declaredIn_increasing : ∀ v ∈ vs, v.declaredIn.Pairwise (· < ·)
  declaredIn : ∀ v ∈ vs, ∀ path, path ∈ v.declaredIn ↔ Declares declarations path v.name
  /-- Some read does without a fallback. -/
  isRequired : ∀ v ∈ vs, v.isRequired = true ↔
    ∃ u ∈ usages, u.name = v.name ∧ u.hasFallback = false

/-! ## Records -/

theorem mem_usedIn_recordOf {name path : String} :
    path ∈ (recordOf usages declarations name).usedIn ↔
      ∃ u ∈ usages, u.name = name ∧ u.filePath = path := by
  simp only [recordOf, mem_sortedNames, List.mem_map, List.mem_filter, beq_iff_eq, and_assoc]

theorem mem_declaredIn_recordOf {name path : String} :
    path ∈ (recordOf usages declarations name).declaredIn ↔ Declares declarations path name := by
  simp only [recordOf, mem_sortedNames, List.mem_map, List.mem_filter, List.contains_iff_mem,
    Declares, and_assoc, and_comm]

theorem isRequired_recordOf {name : String} :
    (recordOf usages declarations name).isRequired = true ↔
      ∃ u ∈ usages, u.name = name ∧ u.hasFallback = false := by
  simp only [recordOf, List.any_eq_true, List.mem_filter, beq_iff_eq, Bool.not_eq_true', and_assoc]

theorem map_name_variablesOf (usages : List Usage) (declarations : Declarations) :
    (variablesOf usages declarations).map (·.name) =
      sortedNames (usages.map (·.name) ++ declarations.flatMap (·.2)) := by
  rw [variablesOf, List.map_map]
  exact List.map_id _

/-- The records are those of the names. -/
theorem exists_of_mem_variablesOf {v : Variable} (h : v ∈ variablesOf usages declarations) :
    v = recordOf usages declarations v.name := by
  obtain ⟨name, -, rfl⟩ := List.mem_map.mp h
  rfl

/-- The records of all variables make a table. -/
theorem table_variablesOf (usages : List Usage) (declarations : Declarations) :
    Table usages declarations (variablesOf usages declarations) where
  increasing := by
    rw [map_name_variablesOf]
    exact sortedNames_pairwise _
  names name := by
    rw [map_name_variablesOf, mem_sortedNames, List.mem_append, List.mem_map, List.mem_flatMap]
    refine or_congr Iff.rfl ⟨?_, ?_⟩
    · rintro ⟨d, hd, hname⟩
      exact ⟨d.1, d, hd, rfl, hname⟩
    · rintro ⟨-, d, hd, -, hname⟩
      exact ⟨d, hd, hname⟩
  usedIn_increasing v hv := by
    rw [exists_of_mem_variablesOf hv]
    exact sortedNames_pairwise _
  usedIn v hv path := by
    rw [exists_of_mem_variablesOf hv]
    exact mem_usedIn_recordOf
  declaredIn_increasing v hv := by
    rw [exists_of_mem_variablesOf hv]
    exact sortedNames_pairwise _
  declaredIn v hv path := by
    rw [exists_of_mem_variablesOf hv]
    exact mem_declaredIn_recordOf
  isRequired v hv := by
    rw [exists_of_mem_variablesOf hv]
    exact isRequired_recordOf

/-- A declared name has a record with the path, and only such a name has one. -/
theorem recorded_iff {name path : String} :
    (∃ v ∈ variablesOf usages declarations, v.name = name ∧ path ∈ v.declaredIn) ↔
      Declares declarations path name := by
  have htable := table_variablesOf usages declarations
  constructor
  · rintro ⟨v, hv, rfl, hpath⟩
    exact (htable.declaredIn v hv path).mp hpath
  · intro h
    obtain ⟨v, hv, rfl⟩ := List.mem_map.mp ((htable.names name).mpr (.inr ⟨path, h⟩))
    exact ⟨v, hv, rfl, (htable.declaredIn v hv path).mpr h⟩

/-! ## One table -/

/-- Records of one name say the same. -/
theorem Table.record_eq (h : Table usages declarations vs) (h' : Table usages declarations vs')
    {v w : Variable} (hv : v ∈ vs) (hw : w ∈ vs') (hname : v.name = w.name) : v = w := by
  have husedIn : v.usedIn = w.usedIn :=
    eq_of_increasing (h.usedIn_increasing v hv) (h'.usedIn_increasing w hw) fun path => by
      rw [h.usedIn v hv, h'.usedIn w hw, hname]
  have hdeclaredIn : v.declaredIn = w.declaredIn :=
    eq_of_increasing (h.declaredIn_increasing v hv) (h'.declaredIn_increasing w hw) fun path => by
      rw [h.declaredIn v hv, h'.declaredIn w hw, hname]
  have hrequired : v.isRequired = w.isRequired := by
    rw [Bool.eq_iff_iff, h.isRequired v hv, h'.isRequired w hw, hname]
  cases v
  cases w
  simp_all only

/-- **One table.** There is only one table of the same reads and declarations. -/
theorem Table.eq (h : Table usages declarations vs) (h' : Table usages declarations vs') :
    vs = vs' := by
  have hnames : vs.map (·.name) = vs'.map (·.name) :=
    eq_of_increasing h.increasing h'.increasing fun name => by rw [h.names, h'.names]
  refine List.ext_getElem (by simpa using congrArg List.length hnames) fun i hi hi' => ?_
  refine h.record_eq h' (List.getElem_mem hi) (List.getElem_mem hi') ?_
  have hname := congrArg (·[i]?) hnames
  simpa [hi, hi'] using hname

/-- Only the set of reads and the set of declarations matter. -/
theorem Table.congr (husages : ∀ u, u ∈ usages' ↔ u ∈ usages)
    (hdeclares : ∀ path name, Declares declarations' path name ↔ Declares declarations path name)
    (h : Table usages' declarations' vs) : Table usages declarations vs where
  increasing := h.increasing
  names name := by
    rw [h.names]
    simp only [husages, hdeclares]
  usedIn_increasing := h.usedIn_increasing
  usedIn v hv path := by
    rw [h.usedIn v hv]
    simp only [husages]
  declaredIn_increasing := h.declaredIn_increasing
  declaredIn v hv path := by rw [h.declaredIn v hv, hdeclares]
  isRequired v hv := by
    rw [h.isRequired v hv]
    simp only [husages]

theorem variablesOf_congr (husages : ∀ u, u ∈ usages' ↔ u ∈ usages)
    (hdeclares : ∀ path name, Declares declarations' path name ↔ Declares declarations path name) :
    variablesOf usages' declarations' = variablesOf usages declarations :=
  ((table_variablesOf usages' declarations').congr husages hdeclares).eq
    (table_variablesOf usages declarations)

/-- **Variables.** There is one record for each name that is read or declared, in the order of the
names, and it says where that happens and whether some read does without a fallback. The same reads
and the same declarations, in any order and however often, come to the same records. -/
theorem variablesOf_settled (usages : List Usage) (declarations : Declarations) :
    Table usages declarations (variablesOf usages declarations) ∧
      ∀ usages' declarations', (∀ u, u ∈ usages' ↔ u ∈ usages) →
        (∀ path name, Declares declarations' path name ↔ Declares declarations path name) →
        variablesOf usages' declarations' = variablesOf usages declarations :=
  ⟨table_variablesOf usages declarations, fun _ _ => variablesOf_congr⟩

/-- A name that is only read, one that is only declared and one of which both is true: reads are
repeated in another order, and so are files and the names in them. -/
theorem variablesOf_settled_reordered :
    let port : Usage := ⟨"PORT", "b.ts", false⟩
    let port' : Usage := ⟨"PORT", "a.ts", true⟩
    let debug : Usage := ⟨"DEBUG", "a.ts", true⟩
    variablesOf [debug, port', port, debug, port']
        [(".env.test", ["PORT"]), (".env", ["SALT", "PORT", "SALT"])] =
      variablesOf [port, port', debug] [(".env", ["PORT", "SALT"]), (".env.test", ["PORT"])] := by
  intro port port' debug
  refine (variablesOf_settled [port, port', debug]
    [(".env", ["PORT", "SALT"]), (".env.test", ["PORT"])]).2 _ _ (fun u => ?_) fun path name => ?_
  · grind
  · simp only [Declares, List.mem_cons, List.not_mem_nil, or_false, exists_eq_or_imp,
      exists_eq_left]
    grind

end CodeSurvey.Environment
