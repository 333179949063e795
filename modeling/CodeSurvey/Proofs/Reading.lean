import CodeSurvey.Pattern.Matching
import CodeSurvey.Proofs.CharSets
import Mathlib.Data.List.Basic

/-!
# Readings

A search tries the ways to match a pattern one after another. Here those ways are described without
an order: which states a pattern can reach from a state.

- `Reads`: a pattern can read on from one state to another.
- `exists_reads_of_run`: a search that succeeds has followed a reading.
- `Reads.exists_passes`: a reading moves on over the text that it reads.
- `meets_of_surely`: what every reading of a pattern comes across.
- `consists_of_reads`: what every reading of a pattern consists of.
- `opensPast_of_reads`, `opens_of_reads`: what every reading of a pattern begins with.
-/

namespace CodeSurvey.Pattern

/-! ## What a pattern reads -/

/-- So many steps one after another. -/
def Rounds (step : State → State → Prop) : Nat → State → State → Prop
  | 0, s, t => t = s
  | n + 1, s, t => ∃ u, step s u ∧ Rounds step n u t

/-- The state after the next character. -/
def State.pass (s : State) (c : Char) (rest : List Char) : State :=
  { s with before := c :: s.before, after := rest, offset := s.offset + 1 }

/-- The pattern can read on from one state to the other. Parts that commit to their preferred match
have only this one. -/
def Reads : Pattern → State → State → Prop
  | empty, s, t => t = s
  | one set, s, t => ∃ c rest, s.after = c :: rest ∧ set.mem c = true ∧ t = s.pass c rest
  | seq p q, s, t => ∃ u, p.Reads s u ∧ q.Reads u t
  | alt p q, s, t => p.Reads s t ∨ q.Reads s t
  | rounds _ least most p, s, t =>
    ∃ u, Rounds p.Reads least s u ∧
      ∃ further, (∀ m ∈ most, further ≤ m - least) ∧ Rounds p.Reads further u t
  | capture key p, s, t =>
    ∃ u, p.Reads s u ∧ t = { u with kept := ⟨key, s.offset, u.offset⟩ :: u.kept }
  | again folded key, s, t => ∃ text, s.text? key = some text ∧ s.read? folded text = some t
  | anchor a, s, t => s.holds a = true ∧ t = s
  | ahead positive p, s, t =>
    if positive then ∃ u, p.run s some = some u ∧ t = { s with kept := u.kept }
    else p.run s some = none ∧ t = s
  | behind positive width p, s, t =>
    if positive then
      ∃ u, (s.back? width).bind (p.run · some) = some u ∧ t = { s with kept := u.kept }
    else (s.back? width).bind (p.run · some) = none ∧ t = s
  | atomic p, s, t => p.run s some = some t
  | whether key p q, s, t => if (s.span? key).isSome then p.Reads s t else q.Reads s t

/-! ## Searches follow readings -/

/-- Whatever is asked for afterwards, a search that succeeds hands over after a step. -/
def Follows (body : Search) (step : State → State → Prop) : Prop :=
  ∀ s goal final, body s goal = some final → ∃ t, step s t ∧ goal t = some final

section Rounds

variable {body : Search} {step : State → State → Prop}

theorem Follows.exactly (hbody : Follows body step) (n : Nat) :
    Follows (exactly body n) (Rounds step n) := by
  induction n with
  | zero => exact fun s goal final h => ⟨s, rfl, h⟩
  | succ n ih =>
    intro s goal final h
    obtain ⟨u, hfirst, h⟩ := hbody s _ final h
    obtain ⟨t, hrest, hgoal⟩ := ih u goal final h
    exact ⟨t, ⟨u, hfirst, hrest⟩, hgoal⟩

/-- Further rounds are steps, no more than allowed. The induction is on the fuel: each round takes
one element of it. -/
theorem Follows.upToRounds (hbody : Follows body step) (greedy : Bool) (fuel : List Char) :
    ∀ (most last : Option Nat) (s : State) (goal : Goal) (final : State),
      upToRounds body greedy fuel most last s goal = some final →
        ∃ further t, (∀ m ∈ most, further ≤ m) ∧ Rounds step further s t ∧ goal t = some final := by
  induction fuel with
  | nil =>
    intro most last s goal final h
    exact ⟨0, s, fun m _ => Nat.zero_le m, rfl, h⟩
  | cons x fuel ih =>
    intro most last s goal final h
    have hstop (hgoal : goal s = some final) :
        ∃ further t, (∀ m ∈ most, further ≤ m) ∧ Rounds step further s t ∧ goal t = some final :=
      ⟨0, s, fun m _ => Nat.zero_le m, rfl, hgoal⟩
    have honward (hmost : most ≠ some 0)
        (hround : (body s fun t => Pattern.upToRounds body greedy fuel (most.map (· - 1))
          (some s.offset) t goal) = some final) :
        ∃ further t, (∀ m ∈ most, further ≤ m) ∧ Rounds step further s t ∧
          goal t = some final := by
      obtain ⟨u, hfirst, hround⟩ := hbody s _ final hround
      obtain ⟨further, t, hbound, hrest, hgoal⟩ := ih _ _ u goal final hround
      refine ⟨further + 1, t, ?_, ⟨u, hfirst, hrest⟩, hgoal⟩
      rintro m ⟨⟩
      have hle := hbound (m - 1) rfl
      have hpositive : m ≠ 0 := fun hzero => hmost (congrArg some hzero)
      omega
    -- Greedy or not, a search that succeeds either goes on or stops.
    rw [Pattern.upToRounds] at h
    split at h
    · exact hstop h
    · rename_i hgo
      have hmost : most ≠ some 0 := by
        rintro rfl
        simp at hgo
      cases greedy with
      | true =>
        simp only [if_true] at h
        split at h
        · rename_i hround
          exact honward hmost (hround.trans h)
        · exact hstop h
      | false =>
        simp only [Bool.false_eq_true, if_false] at h
        split at h
        · rename_i hgoal
          exact hstop (hgoal.trans h)
        · exact honward hmost h

end Rounds

/-- **Searches follow readings.** Where a search succeeds, the pattern can read on to a state that
the goal accepts. The induction is on the pattern. -/
theorem exists_reads_of_run (p : Pattern) : Follows p.run p.Reads := by
  induction p with
  | empty => exact fun s goal final h => ⟨s, rfl, h⟩
  | one set =>
    intro s goal final h
    rw [run] at h
    split at h
    · rename_i c rest hafter
      split at h
      · rename_i hmem
        exact ⟨s.pass c rest, ⟨c, rest, hafter, hmem, rfl⟩, h⟩
      · contradiction
    · contradiction
  | seq p q ihp ihq =>
    intro s goal final h
    obtain ⟨u, hfirst, h⟩ := ihp s _ final h
    obtain ⟨t, hrest, hgoal⟩ := ihq u goal final h
    exact ⟨t, ⟨u, hfirst, hrest⟩, hgoal⟩
  | alt p q ihp ihq =>
    intro s goal final h
    rw [run] at h
    split at h
    · rename_i hleft
      obtain ⟨t, hreads, hgoal⟩ := ihp s goal final (hleft.trans h)
      exact ⟨t, .inl hreads, hgoal⟩
    · obtain ⟨t, hreads, hgoal⟩ := ihq s goal final h
      exact ⟨t, .inr hreads, hgoal⟩
  | rounds greedy least most p ih =>
    -- First come the rounds that there have to be, then those that there may be.
    intro s goal final h
    obtain ⟨u, hleast, h⟩ := Follows.exactly ih least s _ final h
    obtain ⟨further, t, hbound, hrest, hgoal⟩ := Follows.upToRounds ih _ _ _ _ u goal final h
    refine ⟨t, ⟨u, hleast, further, ?_, hrest⟩, hgoal⟩
    rintro m ⟨⟩
    exact hbound (m - least) rfl
  | capture key p ih =>
    intro s goal final h
    obtain ⟨u, hreads, hgoal⟩ := ih s _ final h
    exact ⟨_, ⟨u, hreads, rfl⟩, hgoal⟩
  | again folded key =>
    intro s goal final h
    obtain ⟨text, htext, h⟩ := Option.bind_eq_some_iff.mp h
    obtain ⟨t, hread, hgoal⟩ := Option.bind_eq_some_iff.mp h
    exact ⟨t, ⟨text, htext, hread⟩, hgoal⟩
  | anchor a =>
    intro s goal final h
    rw [run] at h
    split at h
    · rename_i hholds
      exact ⟨s, ⟨hholds, rfl⟩, h⟩
    · contradiction
  | ahead positive p _ =>
    -- A look around reads on from the same place: nothing is passed.
    intro s goal final h
    rw [run] at h
    split at h <;> cases positive
    · contradiction
    · rename_i u hahead
      exact ⟨_, ⟨u, hahead, rfl⟩, h⟩
    · rename_i hahead
      exact ⟨s, ⟨hahead, rfl⟩, h⟩
    · contradiction
  | behind positive width p _ =>
    intro s goal final h
    rw [run] at h
    split at h <;> cases positive
    · contradiction
    · rename_i u hbehind
      exact ⟨_, ⟨u, hbehind, rfl⟩, h⟩
    · rename_i hbehind
      exact ⟨s, ⟨hbehind, rfl⟩, h⟩
    · contradiction
  | atomic p _ =>
    intro s goal final h
    rw [run] at h
    split at h
    · rename_i t hfirst
      exact ⟨t, hfirst, h⟩
    · contradiction
  | whether key p q ihp ihq =>
    intro s goal final h
    rw [run] at h
    split at h
    · rename_i hkept
      obtain ⟨t, hreads, hgoal⟩ := ihp s goal final h
      exact ⟨t, by rw [Reads, if_pos hkept]; exact hreads, hgoal⟩
    · rename_i hkept
      obtain ⟨t, hreads, hgoal⟩ := ihq s goal final h
      exact ⟨t, by rw [Reads, if_neg hkept]; exact hreads, hgoal⟩

/-! ## Forms of readings -/

/-- Rounds one after another are rounds. -/
theorem Rounds.trans {step : State → State → Prop} {n : Nat} {u t : State} :
    ∀ {m : Nat} {s : State}, Rounds step m s u → Rounds step n u t → Rounds step (m + n) s t
  | 0, _, rfl, h' => by
    rw [Nat.zero_add]
    exact h'
  | m + 1, _, ⟨v, hfirst, hrest⟩, h' => by
    rw [Nat.succ_add]
    exact ⟨v, hfirst, Rounds.trans hrest h'⟩

/-- The rounds that there have to be and those that there may be are rounds of the pattern. -/
theorem exists_rounds_of_reads {p : Pattern} {greedy : Bool} {least : Nat} {most : Option Nat}
    {s t : State} (h : (rounds greedy least most p).Reads s t) : ∃ n, Rounds p.Reads n s t := by
  obtain ⟨u, hleast, further, -, hrest⟩ := h
  exact ⟨least + further, hleast.trans hrest⟩

/-- A look ahead stays where it is. What is kept may change. -/
theorem exists_keep_of_ahead {p : Pattern} {positive : Bool} {s t : State}
    (h : (ahead positive p).Reads s t) : ∃ kept, t = { s with kept } := by
  cases positive with
  | true =>
    obtain ⟨u, -, rfl⟩ := h
    exact ⟨u.kept, rfl⟩
  | false =>
    obtain ⟨-, rfl⟩ := h
    exact ⟨t.kept, rfl⟩

/-- So does a look behind. -/
theorem exists_keep_of_behind {p : Pattern} {positive : Bool} {width : Nat} {s t : State}
    (h : (behind positive width p).Reads s t) : ∃ kept, t = { s with kept } := by
  cases positive with
  | true =>
    obtain ⟨u, -, rfl⟩ := h
    exact ⟨u.kept, rfl⟩
  | false =>
    obtain ⟨-, rfl⟩ := h
    exact ⟨t.kept, rfl⟩

/-- A preferred match is what a search found, hence a reading. -/
theorem reads_of_atomic {p : Pattern} {s t : State} (h : (atomic p).Reads s t) : p.Reads s t := by
  obtain ⟨u, hreads, hgoal⟩ := exists_reads_of_run p s some t h
  rw [← Option.some.inj hgoal]
  exact hreads

/-- Whatever is kept, one of the two patterns is read. -/
theorem reads_of_whether {key : String} {p q : Pattern} {s t : State}
    (h : (whether key p q).Reads s t) : p.Reads s t ∨ q.Reads s t := by
  rw [Reads] at h
  split at h
  · exact .inl h
  · exact .inr h

/-! ## Readings move on -/

/-- From one state to the other lies this text. -/
structure Passes (s : State) (text : List Char) (t : State) : Prop where
  after : s.after = text ++ t.after
  before : t.before = text.reverse ++ s.before
  offset : t.offset = s.offset + text.length

theorem Passes.refl (s : State) (kept : List Capture) : Passes s [] { s with kept } :=
  ⟨rfl, rfl, rfl⟩

theorem Passes.trans {s t u : State} {first second : List Char} (h : Passes s first t)
    (h' : Passes t second u) : Passes s (first ++ second) u where
  after := by rw [h.after, h'.after, List.append_assoc]
  before := by rw [h'.before, h.before, List.reverse_append, List.append_assoc]
  offset := by rw [h'.offset, h.offset, List.length_append, Nat.add_assoc]

theorem Passes.pass {s : State} {c : Char} {rest : List Char} (h : s.after = c :: rest) :
    Passes s [c] (s.pass c rest) :=
  ⟨h, rfl, rfl⟩

/-- What is kept on the way makes no difference. -/
theorem Passes.keep {s t : State} {text : List Char} (h : Passes s text t)
    (kept : List Capture) : Passes s text { t with kept } :=
  ⟨h.after, h.before, h.offset⟩

/-- Only one text lies between two states. -/
theorem Passes.eq {s t : State} {first second : List Char} (h : Passes s first t)
    (h' : Passes s second t) : first = second :=
  List.append_cancel_right (h.after.symm.trans h'.after)

/-- A text that is read is passed. -/
theorem passes_of_read? {folded : Bool} {text : List Char} :
    ∀ {s t : State}, s.read? folded text = some t → ∃ read, Passes s read t := by
  induction text with
  | nil =>
    rintro s t ⟨⟩
    exact ⟨[], Passes.refl s s.kept⟩
  | cons c text ih =>
    intro s t h
    rw [State.read?] at h
    split at h
    · rename_i d rest hafter
      by_cases hsame : (if folded = true then Text.sameFold c d else c == d) = true
      · rw [if_pos hsame] at h
        obtain ⟨read, hread⟩ := ih h
        exact ⟨[d] ++ read, (Passes.pass hafter).trans hread⟩
      · rw [if_neg hsame] at h
        contradiction
    · contradiction

/-- With letter case the text that is read is the one that is asked for. -/
theorem passes_of_read?_exact {text : List Char} :
    ∀ {s t : State}, s.read? false text = some t → Passes s text t := by
  induction text with
  | nil =>
    rintro s t ⟨⟩
    exact Passes.refl s s.kept
  | cons c text ih =>
    intro s t h
    rw [State.read?] at h
    split at h
    · rename_i d rest hafter
      by_cases hsame : (c == d) = true
      · rw [if_neg Bool.false_ne_true, if_pos hsame] at h
        obtain rfl := beq_iff_eq.mp hsame
        exact (Passes.pass hafter).trans (ih h)
      · rw [if_neg Bool.false_ne_true, if_neg hsame] at h
        contradiction
    · contradiction

theorem Rounds.exists_passes {step : State → State → Prop}
    (hstep : ∀ s t, step s t → ∃ text, Passes s text t) :
    ∀ {n : Nat} {s t : State}, Rounds step n s t → ∃ text, Passes s text t
  | 0, s, _, rfl => ⟨[], Passes.refl s s.kept⟩
  | n + 1, s, t, ⟨u, hfirst, hrest⟩ => by
    obtain ⟨first, hpasses⟩ := hstep s u hfirst
    obtain ⟨rest, hpasses'⟩ := Rounds.exists_passes hstep hrest
    exact ⟨first ++ rest, hpasses.trans hpasses'⟩

/-- **Readings move on.** A reading passes over a text, perhaps an empty one. -/
theorem Reads.exists_passes {p : Pattern} :
    ∀ {s t : State}, p.Reads s t → ∃ text, Passes s text t := by
  induction p with
  | empty =>
    rintro s t rfl
    exact ⟨[], Passes.refl _ _⟩
  | one set =>
    rintro s t ⟨c, rest, hafter, -, rfl⟩
    exact ⟨[c], Passes.pass hafter⟩
  | seq p q ihp ihq =>
    rintro s t ⟨u, hfirst, hrest⟩
    obtain ⟨first, hpasses⟩ := ihp hfirst
    obtain ⟨rest, hpasses'⟩ := ihq hrest
    exact ⟨first ++ rest, hpasses.trans hpasses'⟩
  | alt p q ihp ihq =>
    rintro s t (h | h)
    · exact ihp h
    · exact ihq h
  | rounds greedy least most p ih =>
    intro s t h
    obtain ⟨n, hrounds⟩ := exists_rounds_of_reads h
    exact hrounds.exists_passes fun _ _ => ih
  | capture key p ih =>
    rintro s t ⟨u, hreads, rfl⟩
    obtain ⟨text, hpasses⟩ := ih hreads
    exact ⟨text, hpasses.keep _⟩
  | again folded key =>
    rintro s t ⟨text, -, hread⟩
    exact passes_of_read? hread
  | anchor a =>
    rintro s t ⟨-, rfl⟩
    exact ⟨[], Passes.refl _ _⟩
  | ahead positive p _ =>
    intro s t h
    obtain ⟨kept, rfl⟩ := exists_keep_of_ahead h
    exact ⟨[], Passes.refl s kept⟩
  | behind positive width p _ =>
    intro s t h
    obtain ⟨kept, rfl⟩ := exists_keep_of_behind h
    exact ⟨[], Passes.refl s kept⟩
  | atomic p ih => exact fun h => ih (reads_of_atomic h)
  | whether key p q ihp ihq =>
    intro s t h
    exact (reads_of_whether h).elim ihp ihq

/-! ## What a reading comes across -/

/-- Whether every reading of the pattern reads a character from a set that passes the check. -/
def surely (p : Pattern) (check : CharSet → Bool) : Bool :=
  match p with
  | empty | again _ _ | anchor _ | ahead _ _ | behind _ _ _ => false
  | one set => check set
  | seq p q => p.surely check || q.surely check
  | alt p q | whether _ p q => p.surely check && q.surely check
  | rounds _ least _ p => least != 0 && p.surely check
  | capture _ p | atomic p => p.surely check

/-- A reading comes across a character of a kind. -/
def Meets (good : Char → Prop) (s t : State) : Prop :=
  ∃ text, Passes s text t ∧ ∃ c ∈ text, good c

theorem Meets.append {good : Char → Prop} {s t u : State} {text : List Char} (h : Meets good s t)
    (h' : Passes t text u) : Meets good s u := by
  obtain ⟨first, hpasses, c, hc, hgood⟩ := h
  exact ⟨first ++ text, hpasses.trans h', c, List.mem_append_left _ hc, hgood⟩

theorem Meets.prepend {good : Char → Prop} {s t u : State} {text : List Char} (h : Passes s text t)
    (h' : Meets good t u) : Meets good s u := by
  obtain ⟨rest, hpasses, c, hc, hgood⟩ := h'
  exact ⟨text ++ rest, h.trans hpasses, c, List.mem_append_right _ hc, hgood⟩

/-- **What is surely met.** If all characters of the sets that pass the check are of a kind, a
pattern of which every reading reads such a set comes across a character of that kind. -/
theorem meets_of_surely {check : CharSet → Bool} {good : Char → Prop}
    (hcheck : ∀ set c, check set = true → set.mem c = true → good c) {p : Pattern} :
    ∀ {s t : State}, p.surely check = true → p.Reads s t → Meets good s t := by
  induction p with
  | empty => simp [surely]
  | again => simp [surely]
  | anchor => simp [surely]
  | ahead => simp [surely]
  | behind => simp [surely]
  | one set =>
    rintro s t hsurely ⟨c, rest, hafter, hmem, rfl⟩
    exact ⟨[c], Passes.pass hafter, c, List.mem_singleton_self c, hcheck set c hsurely hmem⟩
  | seq p q ihp ihq =>
    rintro s t hsurely ⟨u, hfirst, hrest⟩
    rw [surely, Bool.or_eq_true] at hsurely
    rcases hsurely with hp | hq
    · obtain ⟨text, hpasses⟩ := hrest.exists_passes
      exact (ihp hp hfirst).append hpasses
    · obtain ⟨text, hpasses⟩ := hfirst.exists_passes
      exact Meets.prepend hpasses (ihq hq hrest)
  | alt p q ihp ihq =>
    intro s t hsurely h
    rw [surely, Bool.and_eq_true] at hsurely
    rcases h with h | h
    · exact ihp hsurely.1 h
    · exact ihq hsurely.2 h
  | rounds greedy least most p ih =>
    rintro s t hsurely ⟨u, hleast, further, -, hrest⟩
    rw [surely, Bool.and_eq_true, bne_iff_ne] at hsurely
    -- One round is enough, and there is a first one.
    obtain ⟨n, rfl⟩ := Nat.exists_eq_succ_of_ne_zero hsurely.1
    obtain ⟨v, hfirst, hmore⟩ := hleast
    obtain ⟨text, hpasses⟩ := (hmore.trans hrest).exists_passes fun _ _ h => h.exists_passes
    exact (ih hsurely.2 hfirst).append hpasses
  | capture key p ih =>
    rintro s t hsurely ⟨u, hreads, rfl⟩
    obtain ⟨text, hpasses, hgood⟩ := ih hsurely hreads
    exact ⟨text, hpasses.keep _, hgood⟩
  | atomic p ih => exact fun hsurely h => ih hsurely (reads_of_atomic h)
  | whether key p q ihp ihq =>
    intro s t hsurely h
    rw [surely, Bool.and_eq_true] at hsurely
    rcases reads_of_whether h with h | h
    · exact ihp hsurely.1 h
    · exact ihq hsurely.2 h

/-- A reading that comes across any character moves on. -/
theorem Meets.lt {good : Char → Prop} {s t : State} (h : Meets good s t) :
    t.after.length < s.after.length ∧ s.offset < t.offset := by
  obtain ⟨text, hpasses, c, hc, -⟩ := h
  have hpositive := List.length_pos_of_mem hc
  rw [hpasses.after, hpasses.offset, List.length_append]
  omega

/-- What surely reads something reads a first character. -/
theorem exists_cons_of_reads {p : Pattern} {s t : State} (h : p.surely (fun _ => true) = true)
    (hreads : p.Reads s t) : ∃ c rest, Passes s (c :: rest) t := by
  obtain ⟨text, hpasses, d, hd, -⟩ := meets_of_surely (fun _ _ _ _ => trivial) h hreads
  obtain ⟨c, rest, rfl⟩ := List.exists_cons_of_ne_nil (List.ne_nil_of_mem hd)
  exact ⟨c, rest, hpasses⟩

/-! ## What a reading consists of -/

/-- Whether every character that a reading of the pattern reads is from a set that passes the
check. -/
def throughout (p : Pattern) (check : CharSet → Bool) : Bool :=
  match p with
  | empty | anchor _ | ahead _ _ | behind _ _ _ => true
  | again _ _ => false
  | one set => check set
  | seq p q | alt p q | whether _ p q => p.throughout check && q.throughout check
  | rounds _ _ _ p | capture _ p | atomic p => p.throughout check

/-- All characters that are read are of a kind. -/
def Consists (good : Char → Prop) (s t : State) : Prop :=
  ∀ text, Passes s text t → ∀ c ∈ text, good c

theorem Consists.refl (good : Char → Prop) (s : State) (kept : List Capture) :
    Consists good s { s with kept } := by
  intro text hpasses c hc
  obtain rfl : text = [] := hpasses.eq (Passes.refl s kept)
  contradiction

theorem Consists.trans {good : Char → Prop} {s t u : State} {first rest : List Char}
    (h : Consists good s t) (hfirst : Passes s first t) (h' : Consists good t u)
    (hrest : Passes t rest u) : Consists good s u := by
  intro text hpasses c hc
  obtain rfl : text = first ++ rest := hpasses.eq (hfirst.trans hrest)
  rcases List.mem_append.mp hc with hc | hc
  · exact h first hfirst c hc
  · exact h' rest hrest c hc

theorem Rounds.consists {step : State → State → Prop} {good : Char → Prop}
    (hstep : ∀ s t, step s t → Consists good s t)
    (hmoves : ∀ s t, step s t → ∃ text, Passes s text t) :
    ∀ {n : Nat} {s t : State}, Rounds step n s t → Consists good s t
  | 0, s, _, rfl => Consists.refl good s s.kept
  | n + 1, s, t, ⟨u, hfirst, hrest⟩ => by
    obtain ⟨first, hpasses⟩ := hmoves s u hfirst
    obtain ⟨rest, hpasses'⟩ := Rounds.exists_passes hmoves hrest
    exact (hstep s u hfirst).trans hpasses (Rounds.consists hstep hmoves hrest) hpasses'

/-- **What a reading consists of.** If all characters of the sets that pass the check are of a kind,
a pattern that reads such sets only reads characters of that kind only. -/
theorem consists_of_reads {check : CharSet → Bool} {good : Char → Prop}
    (hcheck : ∀ set c, check set = true → set.mem c = true → good c) {p : Pattern} :
    ∀ {s t : State}, p.throughout check = true → p.Reads s t → Consists good s t := by
  induction p with
  | empty =>
    rintro s t - rfl
    exact Consists.refl good _ _
  | one set =>
    rintro s t hset ⟨c, rest, hafter, hmem, rfl⟩ text hpasses d hd
    obtain rfl : text = [c] := hpasses.eq (Passes.pass hafter)
    obtain rfl := List.mem_singleton.mp hd
    exact hcheck set d hset hmem
  | seq p q ihp ihq =>
    rintro s t hboth ⟨u, hfirst, hrest⟩
    rw [throughout, Bool.and_eq_true] at hboth
    obtain ⟨first, hpasses⟩ := hfirst.exists_passes
    obtain ⟨rest, hpasses'⟩ := hrest.exists_passes
    exact (ihp hboth.1 hfirst).trans hpasses (ihq hboth.2 hrest) hpasses'
  | alt p q ihp ihq =>
    intro s t hboth h
    rw [throughout, Bool.and_eq_true] at hboth
    rcases h with h | h
    · exact ihp hboth.1 h
    · exact ihq hboth.2 h
  | rounds greedy least most p ih =>
    intro s t hinner h
    obtain ⟨n, hrounds⟩ := exists_rounds_of_reads h
    exact hrounds.consists (fun _ _ => ih hinner) fun _ _ h => h.exists_passes
  | capture key p ih =>
    rintro s t hkept ⟨u, hreads, rfl⟩ text hpasses
    exact ih hkept hreads text (hpasses.keep u.kept)
  | again => simp [throughout]
  | anchor a =>
    rintro s t - ⟨-, rfl⟩
    exact Consists.refl good _ _
  | ahead positive p _ =>
    intro s t _ h
    obtain ⟨kept, rfl⟩ := exists_keep_of_ahead h
    exact Consists.refl good s kept
  | behind positive width p _ =>
    intro s t _ h
    obtain ⟨kept, rfl⟩ := exists_keep_of_behind h
    exact Consists.refl good s kept
  | atomic p ih => exact fun hinner h => ih hinner (reads_of_atomic h)
  | whether key p q ihp ihq =>
    intro s t hboth h
    rw [throughout, Bool.and_eq_true] at hboth
    rcases reads_of_whether h with h | h
    · exact ihp hboth.1 h
    · exact ihq hboth.2 h

/-- What reads sets within another reads characters of that one only. -/
theorem mem_of_throughout {set : CharSet} {p : Pattern} {s t : State} {text : List Char} {c : Char}
    (h : p.throughout (·.within set) = true) (hreads : p.Reads s t) (hpasses : Passes s text t)
    (hc : c ∈ text) : set.mem c = true :=
  consists_of_reads (fun _ _ => CharSet.mem_of_within) h hreads text hpasses c hc

/-! ## What a reading begins with -/

/-- Whether, in every reading of the pattern, all characters up to the first one from a set that
passes the check are from sets that are skipped. -/
def opensPast (p : Pattern) (skip check : CharSet → Bool) : Bool :=
  match p with
  | empty | anchor _ | ahead _ _ | behind _ _ _ => true
  | again _ _ => false
  | one set => skip set || check set
  | seq p q => p.opensPast skip check && (p.surely check || q.opensPast skip check)
  | alt p q | whether _ p q => p.opensPast skip check && q.opensPast skip check
  | rounds _ _ _ p | capture _ p | atomic p => p.opensPast skip check

/-- The first character that is read and not skipped, if there is one, is of a kind. -/
def OpensPast (skipped : Char → Bool) (good : Char → Prop) (s t : State) : Prop :=
  ∀ text, Passes s text t → ∀ c, text.find? (!skipped ·) = some c → good c

section OpensPast

variable {skipped : Char → Bool} {good : Char → Prop} {s t u : State} {first rest : List Char}

theorem OpensPast.refl (skipped : Char → Bool) (good : Char → Prop) (s : State)
    (kept : List Capture) : OpensPast skipped good s { s with kept } := by
  intro text hpasses c hc
  obtain rfl : text = [] := hpasses.eq (Passes.refl s kept)
  contradiction

/-- If the second part is only looked at behind a first part that is skipped, it tells how the whole
begins. -/
theorem OpensPast.trans (h : OpensPast skipped good s t) (hfirst : Passes s first t)
    (hrest : Passes t rest u)
    (h' : first.find? (!skipped ·) = none → OpensPast skipped good t u) :
    OpensPast skipped good s u := by
  intro text hpasses c hc
  obtain rfl : text = first ++ rest := hpasses.eq (hfirst.trans hrest)
  rw [List.find?_append] at hc
  cases hskipped : first.find? (!skipped ·) with
  | none =>
    rw [hskipped, Option.none_or] at hc
    exact h' hskipped rest hrest c hc
  | some d =>
    rw [hskipped, Option.some_or] at hc
    obtain rfl := Option.some.inj hc
    exact h first hfirst d hskipped

theorem Rounds.opensPast {step : State → State → Prop}
    (hstep : ∀ s t, step s t → OpensPast skipped good s t)
    (hmoves : ∀ s t, step s t → ∃ text, Passes s text t) :
    ∀ {n : Nat} {s t : State}, Rounds step n s t → OpensPast skipped good s t
  | 0, s, _, rfl => OpensPast.refl skipped good s s.kept
  | n + 1, s, t, ⟨u, hfirst, hrest⟩ => by
    obtain ⟨first, hpasses⟩ := hmoves s u hfirst
    obtain ⟨rest, hpasses'⟩ := Rounds.exists_passes hmoves hrest
    exact (hstep s u hfirst).trans hpasses hpasses' fun _ => Rounds.opensPast hstep hmoves hrest

end OpensPast

/-- **What a reading begins with.** If all characters of the sets that pass the check are of a kind
and none of them is skipped, what is read begins, past what is skipped, with a character of that
kind. -/
theorem opensPast_of_reads {skip check : CharSet → Bool} {skipped : Char → Bool}
    {good : Char → Prop} (hskip : ∀ set c, skip set = true → set.mem c = true → skipped c = true)
    (hcheck : ∀ set c, check set = true → set.mem c = true → skipped c = false ∧ good c)
    {p : Pattern} :
    ∀ {s t : State}, p.opensPast skip check = true → p.Reads s t →
      OpensPast skipped good s t := by
  induction p with
  | empty =>
    rintro s t - rfl
    exact OpensPast.refl skipped good _ _
  | one set =>
    rintro s t hset ⟨c, rest, hafter, hmem, rfl⟩ text hpasses d hd
    obtain rfl : text = [c] := hpasses.eq (Passes.pass hafter)
    obtain ⟨hkept, hd⟩ : skipped c = false ∧ c = d := by simpa using hd
    subst hd
    rw [opensPast, Bool.or_eq_true] at hset
    rcases hset with hset | hset
    · rw [hskip set c hset hmem] at hkept
      contradiction
    · exact (hcheck set c hset hmem).2
  | seq p q ihp ihq =>
    rintro s t hopens ⟨u, hfirst, hrest⟩
    rw [opensPast, Bool.and_eq_true, Bool.or_eq_true] at hopens
    obtain ⟨first, hpasses⟩ := hfirst.exists_passes
    obtain ⟨others, hothers⟩ := hrest.exists_passes
    refine (ihp hopens.1 hfirst).trans hpasses hothers fun hskipped => ?_
    -- Where the first part is skipped, it has not read what passes the check.
    rcases hopens.2 with hsurely | hq
    · obtain ⟨text, htext, c, hc, hkept⟩ := meets_of_surely hcheck hsurely hfirst
      obtain rfl : text = first := htext.eq hpasses
      have hmiss := List.find?_eq_none.mp hskipped c hc
      simp [hkept.1] at hmiss
    · exact ihq hq hrest
  | alt p q ihp ihq =>
    intro s t hopens h
    rw [opensPast, Bool.and_eq_true] at hopens
    rcases h with h | h
    · exact ihp hopens.1 h
    · exact ihq hopens.2 h
  | rounds greedy least most p ih =>
    intro s t hopens h
    obtain ⟨n, hrounds⟩ := exists_rounds_of_reads h
    exact hrounds.opensPast (fun _ _ => ih hopens) fun _ _ h => h.exists_passes
  | capture key p ih =>
    rintro s t hopens ⟨u, hreads, rfl⟩ text hpasses
    exact ih hopens hreads text (hpasses.keep u.kept)
  | again => simp [opensPast]
  | anchor a =>
    rintro s t - ⟨-, rfl⟩
    exact OpensPast.refl skipped good _ _
  | ahead positive p _ =>
    intro s t _ h
    obtain ⟨kept, rfl⟩ := exists_keep_of_ahead h
    exact OpensPast.refl skipped good s kept
  | behind positive width p _ =>
    intro s t _ h
    obtain ⟨kept, rfl⟩ := exists_keep_of_behind h
    exact OpensPast.refl skipped good s kept
  | atomic p ih => exact fun hopens h => ih hopens (reads_of_atomic h)
  | whether key p q ihp ihq =>
    intro s t hopens h
    rw [opensPast, Bool.and_eq_true] at hopens
    rcases reads_of_whether h with h | h
    · exact ihp hopens.1 h
    · exact ihq hopens.2 h

/-! ## The first character -/

/-- Whether every reading of the pattern that reads anything begins with a character from a set that
passes the check. -/
def opens (p : Pattern) (check : CharSet → Bool) : Bool :=
  match p with
  | empty | anchor _ | ahead _ _ | behind _ _ _ => true
  | again _ _ => false
  | one set => check set
  | seq p q => p.opens check && (p.surely (fun _ => true) || q.opens check)
  | alt p q | whether _ p q => p.opens check && q.opens check
  | rounds _ _ _ p | capture _ p | atomic p => p.opens check

/-- What is read, if anything, begins with a character of a kind. -/
def Opens (good : Char → Prop) (s t : State) : Prop :=
  ∀ text, Passes s text t → ∀ c, text.head? = some c → good c

/-- What surely reads something, and begins as checked, surely reads what passes the check. -/
theorem surely_of_opens {check : CharSet → Bool} {p : Pattern} :
    p.opens check = true → p.surely (fun _ => true) = true → p.surely check = true := by
  induction p with
  | one set => exact fun h _ => h
  | seq p q ihp ihq =>
    intro hopens hsurely
    rw [opens, Bool.and_eq_true, Bool.or_eq_true] at hopens
    rw [surely, Bool.or_eq_true] at hsurely ⊢
    rcases hopens.2 with hp | hq
    · exact .inl (ihp hopens.1 hp)
    · exact hsurely.imp (ihp hopens.1) (ihq hq)
  | alt p q ihp ihq | whether key p q ihp ihq =>
    intro hopens hsurely
    rw [opens, Bool.and_eq_true] at hopens
    rw [surely, Bool.and_eq_true] at hsurely ⊢
    exact ⟨ihp hopens.1 hsurely.1, ihq hopens.2 hsurely.2⟩
  | rounds greedy least most p ih =>
    intro hopens hsurely
    rw [surely, Bool.and_eq_true] at hsurely ⊢
    exact ⟨hsurely.1, ih hopens hsurely.2⟩
  | capture key p ih | atomic p ih => exact ih
  | _ => exact fun _ h => h

/-- The first character is the first one if none is skipped. -/
theorem opensPast_of_opens {check : CharSet → Bool} {p : Pattern} :
    p.opens check = true → p.opensPast (fun _ => false) check = true := by
  induction p with
  | one set => exact fun h => h
  | seq p q ihp ihq =>
    intro hopens
    rw [opens, Bool.and_eq_true, Bool.or_eq_true] at hopens
    rw [opensPast, Bool.and_eq_true, Bool.or_eq_true]
    exact ⟨ihp hopens.1, hopens.2.imp (surely_of_opens hopens.1) ihq⟩
  | alt p q ihp ihq | whether key p q ihp ihq =>
    intro hopens
    rw [opens, Bool.and_eq_true] at hopens
    rw [opensPast, Bool.and_eq_true]
    exact ⟨ihp hopens.1, ihq hopens.2⟩
  | rounds greedy least most p ih | capture key p ih | atomic p ih => exact ih
  | _ => exact fun h => h

/-- If all characters of the sets that pass the check are of a kind, what is read begins with a
character of that kind. -/
theorem opens_of_reads {check : CharSet → Bool} {good : Char → Prop}
    (hcheck : ∀ set c, check set = true → set.mem c = true → good c) {p : Pattern}
    {s t : State} (hopens : p.opens check = true) (h : p.Reads s t) : Opens good s t := by
  have hpast : OpensPast (fun _ => false) good s t :=
    opensPast_of_reads (fun _ _ hnone _ => hnone)
      (fun set c hset hmem => ⟨rfl, hcheck set c hset hmem⟩) (opensPast_of_opens hopens) h
  intro text hpasses c hc
  apply hpast text hpasses
  cases text with
  | nil => contradiction
  | cons d others => exact hc

/-- What begins with sets within another begins with a character of that one. -/
theorem mem_of_opens {set : CharSet} {p : Pattern} {s t : State} {c : Char} {rest : List Char}
    (h : p.opens (·.within set) = true) (hreads : p.Reads s t)
    (hpasses : Passes s (c :: rest) t) : set.mem c = true :=
  opens_of_reads (fun _ _ => CharSet.mem_of_within) h hreads _ hpasses c rfl

end CodeSurvey.Pattern
