import Mathlib.Algebra.GroupWithZero.Nat
import Mathlib.Data.List.Nodup
import NgapProcedures.Ident

/-! What generators hand out. A family of clones goes through the names of one sequence, whichever of
its members is asked, and no two sequences have a name in common: what stands behind the last dash is
the number, and what stands before it the stem. -/

namespace NgapProcedures

namespace Sequence

theorem eq_nil_of_dash_cons {cs ds es : List Char} (hds : '-' ∉ ds)
    (h : '-' :: ds = cs ++ '-' :: es) : cs = [] := by
  cases cs with
  | nil => rfl
  | cons c cs =>
    obtain ⟨-, rfl⟩ := List.cons.inj h
    simp at hds

/-- a text is told apart at its last dash -/
theorem eq_of_append_dash {a b ds es : List Char} (hds : '-' ∉ ds) (hes : '-' ∉ es)
    (h : a ++ '-' :: ds = b ++ '-' :: es) : a = b ∧ ds = es := by
  rcases List.append_eq_append_iff.1 h with ⟨cs, hb, hcs⟩ | ⟨cs, ha, hcs⟩
  · obtain rfl := eq_nil_of_dash_cons hds hcs
    simp_all
  · obtain rfl := eq_nil_of_dash_cons hes hcs
    simp_all

theorem dash_notMem_toDigits (n : Nat) : '-' ∉ Nat.toDigits 10 n := by
  intro h
  exact absurd (Nat.isDigit_of_mem_toDigits (by decide) (by decide) h) (by decide)

theorem toList_nameAt (stem : String) (n : UInt64) :
    (nameAt stem n).toList = stem.toList ++ '-' :: Nat.toDigits 10 n.toNat := by
  simp [nameAt]

theorem nameAt_inj {a b : String} {m n : UInt64} : nameAt a m = nameAt b n ↔ a = b ∧ m = n := by
  refine ⟨fun h => ?_, fun ⟨ha, hm⟩ => ha ▸ hm ▸ rfl⟩
  have hlists := congrArg String.toList h
  rw [toList_nameAt, toList_nameAt] at hlists
  obtain ⟨hstem, hdigits⟩ :=
    eq_of_append_dash (dash_notMem_toDigits _) (dash_notMem_toDigits _) hlists
  refine ⟨String.toList_inj.1 hstem, UInt64.toNat_inj.1 ?_⟩
  simpa using congrArg (Nat.ofDigitChars 10 · 0) hdigits

end Sequence

/-- a sequence has a name of its own for each of its numbers, until they have all been used -/
theorem IdSource.sequential_inj {stem stem' : String} {k k' : Nat} (hk : k < 2 ^ 64)
    (hk' : k' < 2 ^ 64) :
    (sequential stem).name k = (sequential stem').name k' ↔ stem = stem' ∧ k = k' := by
  simp only [sequential, ProcedureId.mk.injEq, Sequence.nameAt_inj, UInt64.add_right_inj]
  refine and_congr_right fun _ => ⟨fun h => ?_, fun h => h ▸ rfl⟩
  have hnat := congrArg UInt64.toNat h
  rwa [UInt64.toNat_ofNat_of_lt' hk, UInt64.toNat_ofNat_of_lt' hk'] at hnat

/-- the next so many names of a sequence -/
def Sequence.names (s : Sequence) : Nat → List String
  | 0 => []
  | n + 1 => s.draw.1 :: s.draw.2.names n

theorem Sequence.names_eq (s : Sequence) (n : Nat) :
    s.names n = (List.range n).map fun k => nameAt s.stem (s.next + UInt64.ofNat k) := by
  induction n generalizing s with
  | zero => rfl
  | succ n ih =>
    rw [names, ih, List.range_succ_eq_map, List.map_cons, List.map_map]
    congr 1
    · simp [draw]
    · refine List.map_congr_left fun k _ => ?_
      simp [draw, UInt64.add_assoc, UInt64.add_comm]

theorem Sequence.mem_names {stem name : String} {n : Nat} :
    name ∈ names { stem := stem } n ↔ ∃ k < n, ((IdSource.sequential stem).name k).text = name := by
  simp [names_eq, IdSource.sequential]

theorem Sequence.nodup_names (stem : String) {n : Nat} (h : n ≤ 2 ^ 64) :
    (names { stem := stem } n).Nodup := by
  rw [names_eq]
  refine List.Nodup.map_on ?_ List.nodup_range
  intro k hk k' hk' heq
  rw [List.mem_range] at hk hk'
  exact ((IdSource.sequential_inj (Nat.lt_of_lt_of_le hk h) (Nat.lt_of_lt_of_le hk' h)).1
    (congrArg ProcedureId.mk heq)).2

namespace Generators

inductive Call where
  | add (stem : String)
  | clone (generator : Nat)
  | draw (generator : Nat)

def Call.stem? : Call → Option String
  | add stem => some stem
  | _ => none

/-- a name, the generator it was drawn from, and the family whose counter went on by it -/
structure Draw where
  generator : Nat
  family : Nat
  name : String
  deriving DecidableEq

def call (g : Generators) : Call → Option Draw × Generators
  | .add stem => (none, g.add stem)
  | .clone i => (none, g.clone i)
  | .draw i =>
    match g.members[i]?, g.draw i with
    | some family, some (name, g') => (some ⟨i, family, name⟩, g')
    | _, _ => (none, g)

def draws (g : Generators) : List Call → List Draw
  | [] => []
  | c :: rest => (g.call c).1.toList ++ (g.call c).2.draws rest

def after (g : Generators) (calls : List Call) : Generators :=
  calls.foldl (fun g c => (g.call c).2) g

/-- every generator has a counter to draw from -/
def Housed (g : Generators) : Prop := ∀ family ∈ g.members, family < g.families.length

/-- the families there are, and those that the calls found -/
def founded (g : Generators) (calls : List Call) : List Sequence :=
  g.families ++ (calls.filterMap Call.stem?).map fun stem => { stem := stem }

variable {g g' : Generators} {d : Draw} {c : Call} {calls : List Call}

/-- a draw is from the counter of a family, and sets it on by one -/
theorem call_eq_some (h : g.call c = (some d, g')) : ∃ s : Sequence,
    g.families[d.family]? = some s ∧ d.name = s.draw.1 ∧
      g' = { g with families := g.families.set d.family s.draw.2 } ∧ c.stem? = none := by
  cases c with
  | add stem => cases h
  | clone i => cases h
  | draw i =>
    simp only [call, draw] at h
    cases hm : g.members[i]? with
    | none => simp [hm] at h
    | some family =>
      cases hs : g.families[family]? with
      | none => simp [hm, hs] at h
      | some s =>
        simp only [hm, hs, Option.bind_eq_bind, Option.bind_some, Option.pure_def,
          Prod.mk.injEq, Option.some.injEq] at h
        obtain ⟨rfl, rfl⟩ := h
        exact ⟨s, hs, rfl, rfl, rfl⟩

theorem eq_of_call_draw {i : Nat} (h : g.call (.draw i) = (none, g')) : g' = g := by
  simp only [call] at h
  split at h
  · cases h
  · exact (Prod.mk.inj h).2.symm

theorem Housed.call (h : g.Housed) (c : Call) : (g.call c).2.Housed := by
  cases c with
  | add stem =>
    intro family hmem
    rcases List.mem_append.1 hmem with hmem | hmem
    · exact Nat.lt_of_lt_of_le (h family hmem) (by simp [Generators.call, add])
    · simp_all [Generators.call, add]
  | clone i =>
    simp only [Generators.call, clone]
    split
    · next family hi =>
      intro family' hmem
      rcases List.mem_append.1 hmem with hmem | hmem
      · exact h family' hmem
      · exact List.mem_singleton.1 hmem ▸ h family (List.mem_of_getElem? hi)
    · exact h
  | draw i =>
    rcases hc : g.call (.draw i) with ⟨_ | d, g'⟩
    · exact eq_of_call_draw hc ▸ h
    · obtain ⟨s, -, -, rfl, -⟩ := call_eq_some hc
      simpa [Housed] using h

theorem Housed.after (h : g.Housed) (calls : List Call) : (g.after calls).Housed := by
  induction calls generalizing g with
  | nil => exact h
  | cons c rest ih => exact ih (h.call c)

theorem Housed.exists_draw (h : g.Housed) {i : Nat} (hi : i < g.members.length) :
    ∃ family name, (g.call (.draw i)).1 = some ⟨i, family, name⟩ := by
  have hmember := List.getElem?_eq_getElem hi
  have hfamily := List.getElem?_eq_getElem (h _ (List.getElem_mem hi))
  simp [Generators.call, draw, hmember, hfamily]

theorem draws_append (before calls : List Call) :
    g.draws (before ++ calls) = g.draws before ++ (g.after before).draws calls := by
  induction before generalizing g with
  | nil => rfl
  | cons c rest ih => simp [draws, after, ih]

theorem exists_draws_concat {i : Nat} (h : i < (after {} calls).members.length) :
    ∃ family name, draws {} (calls ++ [.draw i]) = draws {} calls ++ [⟨i, family, name⟩] := by
  have hhoused : Housed {} := by simp [Housed]
  obtain ⟨family, name, hdraw⟩ := (hhoused.after calls).exists_draw h
  exact ⟨family, name, by simp [draws_append, draws, hdraw]⟩

theorem founded_of_call_none (h : g.call c = (none, g')) (calls : List Call) :
    g'.founded calls = g.founded (c :: calls) := by
  cases c with
  | add stem =>
    obtain rfl := (Prod.mk.inj h).2
    simp [founded, add, Call.stem?]
  | clone i =>
    obtain rfl := (Prod.mk.inj h).2
    unfold clone
    split <;> simp [founded, Call.stem?, List.filterMap_cons]
  | draw i =>
    obtain rfl := eq_of_call_draw h
    simp [founded, Call.stem?, List.filterMap_cons]

theorem founded_of_call_some (h : g.call c = (some d, g')) (calls : List Call) : ∃ s : Sequence,
    (g.founded (c :: calls))[d.family]? = some s ∧ d.name = s.draw.1 ∧
      g'.founded calls = (g.founded (c :: calls)).set d.family s.draw.2 := by
  obtain ⟨s, hs, hname, rfl, hstem⟩ := call_eq_some h
  have hlt : d.family < g.families.length := (List.getElem?_eq_some_iff.1 hs).1
  refine ⟨s, ?_, hname, ?_⟩
  · rw [founded, List.getElem?_append_left hlt, hs]
  · simp only [founded, List.filterMap_cons, hstem]
    rw [List.set_append_left _ _ hlt]

/-- what is drawn from a family are the next names of its sequence, by induction on the calls -/
theorem names_of_family {f : Nat} {s : Sequence} (h : (g.founded calls)[f]? = some s) :
    ((g.draws calls).filter (·.family = f)).map (·.name) =
      s.names ((g.draws calls).countP (·.family = f)) := by
  induction calls generalizing g s with
  | nil => rfl
  | cons c rest ih =>
    rcases hc : g.call c with ⟨drawn, g'⟩
    cases drawn with
    | none =>
      rw [← founded_of_call_none hc rest] at h
      simpa [draws, hc] using ih h
    | some d =>
      obtain ⟨s', hs', hname, hnext⟩ := founded_of_call_some hc rest
      by_cases hf : d.family = f
      · subst hf
        obtain rfl : s' = s := Option.some.inj (hs'.symm.trans h)
        have hlater : (g'.founded rest)[d.family]? = some s'.draw.2 := by
          rw [hnext, List.getElem?_set_self (List.getElem?_eq_some_iff.1 hs').1]
        simpa [draws, hc, hname, Sequence.names] using ih hlater
      · have hlater : (g'.founded rest)[f]? = some s := by
          rw [hnext, List.getElem?_set_ne hf, h]
        simpa [draws, hc, hf] using ih hlater

theorem exists_family_of_mem_draws (h : d ∈ g.draws calls) :
    ∃ s, (g.founded calls)[d.family]? = some s := by
  induction calls generalizing g with
  | nil => cases h
  | cons c rest ih =>
    rcases hc : g.call c with ⟨drawn, g'⟩
    rw [draws, hc, List.mem_append] at h
    cases drawn with
    | none =>
      rw [← founded_of_call_none hc rest]
      simpa using ih (h.resolve_left (by simp))
    | some d' =>
      obtain ⟨s, hs, -, hnext⟩ := founded_of_call_some hc rest
      rcases h with hd | hd
      · obtain rfl : d = d' := by simpa using hd
        exact ⟨s, hs⟩
      · obtain ⟨s', hs'⟩ := ih hd
        have hlt := (List.getElem?_eq_some_iff.1 hs').1
        rw [hnext, List.length_set] at hlt
        exact ⟨_, List.getElem?_eq_getElem hlt⟩

theorem stem_of_mem_draws (h : d ∈ draws {} calls) :
    ∃ stem, (calls.filterMap Call.stem?)[d.family]? = some stem ∧
      ((draws {} calls).filter (·.family = d.family)).map (·.name) =
        Sequence.names { stem := stem } ((draws {} calls).countP (·.family = d.family)) := by
  obtain ⟨s, hs⟩ := exists_family_of_mem_draws h
  have hnames := names_of_family hs
  rw [founded, List.nil_append, List.getElem?_map, Option.map_eq_some_iff] at hs
  obtain ⟨stem, hstem, rfl⟩ := hs
  exact ⟨stem, hstem, hnames⟩

/-- no name is drawn twice, as long as no counter has come round -/
theorem nodup_draws (hstems : (calls.filterMap Call.stem?).Nodup)
    (hcount : ∀ family, (draws {} calls).countP (·.family = family) ≤ 2 ^ 64) :
    ((draws {} calls).map (·.name)).Nodup := by
  rw [List.Nodup, List.pairwise_map, List.pairwise_iff_forall_sublist]
  intro a b hab heq
  obtain ⟨stem, hstem, hnames⟩ := stem_of_mem_draws (hab.subset (List.mem_cons_self ..))
  obtain ⟨stem', hstem', hnames'⟩ := stem_of_mem_draws (hab.subset (by simp : b ∈ [a, b]))
  -- names that are equal are of one family
  have hfamily : a.family = b.family := by
    have ha : a.name ∈ Sequence.names { stem := stem } _ :=
      hnames ▸ List.mem_map_of_mem (List.mem_filter.2 ⟨hab.subset (by simp), by simp⟩)
    have hb : b.name ∈ Sequence.names { stem := stem' } _ :=
      hnames' ▸ List.mem_map_of_mem (List.mem_filter.2 ⟨hab.subset (by simp), by simp⟩)
    obtain ⟨k, hk, hka⟩ := Sequence.mem_names.1 ha
    obtain ⟨k', hk', hkb⟩ := Sequence.mem_names.1 hb
    obtain ⟨rfl, -⟩ := (IdSource.sequential_inj (Nat.lt_of_lt_of_le hk (hcount _))
      (Nat.lt_of_lt_of_le hk' (hcount _))).1
      (congrArg ProcedureId.mk (hka.trans (heq.trans hkb.symm)))
    exact (List.getElem?_inj (List.getElem?_eq_some_iff.1 hstem).1 hstems).1
      (hstem.trans hstem'.symm)
  -- and no family has a name twice
  have hpair := (hab.filter (·.family = a.family)).map (·.name)
  rw [hnames] at hpair
  have htwice := (Sequence.nodup_names stem (hcount a.family)).sublist hpair
  simp [hfamily, heq] at htwice

end Generators

end NgapProcedures
