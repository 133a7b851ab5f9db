import NgapProcedures.Proofs.Json.Scan

/-! A value whose numbers are whole and fit in 64 bits is read back from its text, as long as it does
not nest too deep: the text's structure first, and from the structure the value that is kept of it. -/

namespace NgapProcedures

namespace Json

/-- a value nested at most as deep as given, whose numbers are whole and fit in 64 bits -/
inductive Plain : Nat → Json → Prop where
  | null {depth : Nat} : Plain depth .null
  | bool {depth : Nat} (b : Bool) : Plain depth (.bool b)
  | natural {depth n : Nat} (h : n < UInt64.size) : Plain depth (.natural n)
  | string {depth : Nat} (s : String) : Plain depth (.string s)
  | array {depth : Nat} {items : List Json} (h : ∀ x ∈ items, Plain depth x) :
    Plain (depth + 1) (.array items)
  | object {depth : Nat} {members : List (String × Json)} (h : ∀ m ∈ members, Plain depth m.2) :
    Plain (depth + 1) (.object members)

theorem render_natural (n : Nat) : (natural n).render = Decimal.digits n := by
  simp [natural, render, renderNumeral]

end Json

namespace JsonText

open Json

mutual

def ofJson : Json → JsonText
  | .null => .null
  | .bool b => .bool b
  | .number n => .number (.ofNat n.digits)
  | .string s => .string (some s)
  | .array items => .array (ofItems items)
  | .object members => .object (ofMembers members)

def ofItems : List Json → List JsonText
  | [] => []
  | x :: xs => ofJson x :: ofItems xs

def ofMembers : List (String × Json) → List (Option String × JsonText)
  | [] => []
  | (k, v) :: ms => (some k, ofJson v) :: ofMembers ms

end

theorem isBlank_of_isDigit {c : Char} (h : Decimal.isDigit c = true) : isBlank c = false := by
  unfold isBlank
  have hne : ∀ b : Char, Decimal.isDigit b = false → (c == b) = false := by
    intro b hb
    rw [beq_eq_false_iff_ne]
    rintro rfl
    rw [h] at hb
    cases hb
  simp [hne ' ' rfl, hne '\t' rfl, hne '\n' rfl, hne '\r' rfl]

theorem render_eq_cons {depth : Nat} {j : Json} (h : j.Plain depth) :
    ∃ c cs, j.render = c :: cs ∧ isBlank c = false ∧ c ≠ ']' := by
  cases h with
  | null => exact ⟨_, _, rfl, rfl, by decide⟩
  | bool b => cases b <;> exact ⟨_, _, rfl, rfl, by decide⟩
  | @natural _ n _ =>
    obtain ⟨c, cs, hcons, hc⟩ := Decimal.exists_digits_eq_cons n
    refine ⟨c, cs, (render_natural n).trans hcons, isBlank_of_isDigit hc, ?_⟩
    rintro rfl
    cases hc
  | string s => exact ⟨_, _, rfl, rfl, by decide⟩
  | @array _ items _ => cases items <;> exact ⟨_, _, rfl, rfl, by decide⟩
  | @object _ members _ => rcases members with _ | ⟨⟨k, v⟩, ms⟩ <;> exact ⟨_, _, rfl, rfl, by decide⟩

theorem skipBlanks_cons {c : Char} (h : isBlank c = false) (cs : List Char) :
    skipBlanks (c :: cs) = c :: cs := by
  simp [skipBlanks, h]

/-- that a value is read back by as many steps as its text has characters -/
def ReadsBack (j : Json) : Prop :=
  ∀ n rest, j.render.length < n → EndsValue rest →
    readValue n (j.render ++ rest) = some (ofJson j, rest)

theorem endsValue_renderItems (xs : List Json) (rest : List Char) :
    EndsValue (renderItems xs ++ rest) := by
  cases xs with
  | nil => exact .inr (.inl rfl)
  | cons x xs => exact .inl rfl

theorem endsValue_renderMembers (ms : List (String × Json)) (rest : List Char) :
    EndsValue (renderMembers ms ++ rest) := by
  cases ms with
  | nil => exact .inr (.inr rfl)
  | cons m ms => exact .inl rfl

theorem readItems_renderItems {xs : List Json} (h : ∀ x ∈ xs, ReadsBack x) (n : Nat)
    (rest : List Char) (hn : (renderItems xs).length < n) :
    readItems n (renderItems xs ++ rest) = some (ofItems xs, rest) := by
  induction xs generalizing n with
  | nil =>
    cases n with
    | zero => simp at hn
    | succ n => simp [renderItems, readItems, skipBlanks, isBlank, ofItems]
  | cons x xs ih =>
    cases n with
    | zero => simp at hn
    | succ n =>
      obtain ⟨hx, hxs⟩ := List.forall_mem_cons.1 h
      simp only [renderItems, List.cons_append, List.length_cons, List.length_append,
        List.append_assoc] at hn ⊢
      have hvalue := hx n (renderItems xs ++ rest) (by omega) (endsValue_renderItems xs rest)
      have hitems := ih hxs n (by omega)
      rw [readItems, skipBlanks_cons rfl]
      simp [hvalue, hitems, ofItems]

theorem readMember_renderString {v : Json} (h : ReadsBack v) (k : String) (n : Nat)
    {rest : List Char} (hrest : EndsValue rest)
    (hn : (renderString k ++ ':' :: v.render).length < n) :
    readMember n (renderString k ++ ':' :: (v.render ++ rest)) = some ((some k, ofJson v), rest) := by
  cases n with
  | zero => simp at hn
  | succ n =>
    simp only [renderString, List.cons_append, List.length_cons, List.length_append,
      List.append_assoc, List.nil_append] at hn ⊢
    have hvalue := h n rest (by omega) hrest
    have hname := readString_renderString k (':' :: (v.render ++ rest))
    rw [readMember, skipBlanks_cons rfl]
    simp [hname, skipBlanks_cons, isBlank, hvalue]

theorem readMembers_renderMembers {ms : List (String × Json)} (h : ∀ m ∈ ms, ReadsBack m.2)
    (n : Nat) (rest : List Char) (hn : (renderMembers ms).length < n) :
    readMembers n (renderMembers ms ++ rest) = some (ofMembers ms, rest) := by
  induction ms generalizing n with
  | nil =>
    cases n with
    | zero => simp at hn
    | succ n => simp [renderMembers, readMembers, skipBlanks, isBlank, ofMembers]
  | cons m ms ih =>
    obtain ⟨k, v⟩ := m
    cases n with
    | zero => simp at hn
    | succ n =>
      obtain ⟨hv, hms⟩ := List.forall_mem_cons.1 h
      simp only [renderMembers, List.cons_append, List.length_cons, List.length_append,
        List.append_assoc] at hn ⊢
      have hmember := readMember_renderString hv k n (endsValue_renderMembers ms rest)
        (by simp only [List.length_append, List.length_cons]; omega)
      have hmembers := ih hms n (by omega)
      rw [readMembers, skipBlanks_cons rfl]
      simp [hmember, hmembers, ofMembers]

theorem readValue_of_isDigit {c : Char} (hc : Decimal.isDigit c = true) (n : Nat) (cs : List Char) :
    readValue (n + 1) (c :: cs) =
      (JsonNumber.read (c :: cs)).map fun (n, rest) => (.number n, rest) := by
  rw [readValue, skipBlanks_cons (isBlank_of_isDigit hc)]
  split
  all_goals first
    | rfl
    | next heq =>
      obtain ⟨rfl, -⟩ := List.cons.inj heq
      cases hc

theorem readValue_items {c : Char} (hblank : isBlank c = false) (hc : c ≠ ']') (n : Nat)
    (cs : List Char) :
    readValue (n + 1) ('[' :: c :: cs) = (do
      let (x, rest) ← readValue n (c :: cs)
      let (xs, rest) ← readItems n rest
      return (.array (x :: xs), rest)) := by
  rw [readValue, skipBlanks_cons rfl]
  simp only [skipBlanks_cons hblank]
  split
  · next heq => exact absurd (List.cons.inj heq).1 hc
  · rfl

theorem readValue_members (n : Nat) (cs : List Char) :
    readValue (n + 1) ('\x7b' :: '"' :: cs) = (do
      let (m, rest) ← readMember n ('"' :: cs)
      let (ms, rest) ← readMembers n rest
      return (.object (m :: ms), rest)) := by
  have hquote : skipBlanks ('"' :: cs) = '"' :: cs := skipBlanks_cons rfl cs
  rw [readValue, skipBlanks_cons rfl]
  simp only [hquote]
  split
  · next heq => cases heq
  · rfl

/-- a text has a character, so that there is a first step to take -/
theorem ReadsBack.of_succ {j : Json} (h : ∀ n rest, j.render.length ≤ n → EndsValue rest →
    readValue (n + 1) (j.render ++ rest) = some (ofJson j, rest)) : ReadsBack j := by
  intro n rest hn hrest
  cases n with
  | zero => simp at hn
  | succ n => exact h n rest (Nat.le_of_lt_succ hn) hrest

theorem readsBack_natural (k : Nat) : ReadsBack (.natural k) := by
  refine .of_succ fun n rest _ hrest => ?_
  obtain ⟨c, cs, hcons, hc⟩ := Decimal.exists_digits_eq_cons k
  have hread := JsonNumber.read_digits_append k hrest
  rw [render_natural]
  rw [hcons, List.cons_append] at hread ⊢
  rw [readValue_of_isDigit hc, hread]
  rfl

theorem readsBack_string (s : String) : ReadsBack (.string s) := by
  refine .of_succ fun n rest _ _ => ?_
  have hstring := readString_renderString s rest
  simp only [render, renderString, List.cons_append, List.append_assoc, List.nil_append]
  rw [readValue, skipBlanks_cons rfl]
  simp [hstring, ofJson]

theorem readsBack_array {items : List Json} (h : ∀ x ∈ items, ReadsBack x)
    (hstart : ∀ x ∈ items, ∃ c cs, x.render = c :: cs ∧ isBlank c = false ∧ c ≠ ']') :
    ReadsBack (.array items) := by
  refine .of_succ fun n rest hn _ => ?_
  cases items with
  | nil => simp [render, readValue, skipBlanks, isBlank, ofJson, ofItems]
  | cons x xs =>
    obtain ⟨hx, hxs⟩ := List.forall_mem_cons.1 h
    simp only [render, List.cons_append, List.length_cons, List.length_append,
      List.append_assoc] at hn ⊢
    have hvalue := hx n (renderItems xs ++ rest) (by omega) (endsValue_renderItems xs rest)
    have hitems := readItems_renderItems hxs n rest (by omega)
    obtain ⟨c, cs, hcons, hblank, hc⟩ := hstart x List.mem_cons_self
    rw [hcons, List.cons_append] at hvalue ⊢
    rw [readValue_items hblank hc, hvalue]
    simp [hitems, ofJson, ofItems]

theorem readsBack_object {members : List (String × Json)} (h : ∀ m ∈ members, ReadsBack m.2) :
    ReadsBack (.object members) := by
  refine .of_succ fun n rest hn _ => ?_
  rcases members with _ | ⟨⟨k, v⟩, ms⟩
  · simp [render, readValue, skipBlanks, isBlank, ofJson, ofMembers]
  · obtain ⟨hv, hms⟩ := List.forall_mem_cons.1 h
    simp only [render, List.cons_append, List.length_cons, List.length_append,
      List.append_assoc] at hn ⊢
    have hmember := readMember_renderString hv k n (endsValue_renderMembers ms rest)
      (by simp only [List.length_append, List.length_cons]; omega)
    have hmembers := readMembers_renderMembers hms n rest (by omega)
    rw [renderString, List.cons_append, List.cons_append] at hmember ⊢
    rw [readValue_members, hmember]
    simp [hmembers, ofJson, ofMembers]

/-- Every plain value is read back from its text, whatever ends it. The induction is on how the value
is built; the text of a part is shorter, so that steps enough are left for it. -/
theorem readsBack_of_plain {depth : Nat} {j : Json} (h : j.Plain depth) : ReadsBack j := by
  induction h with
  | null => exact .of_succ fun _ _ _ _ => rfl
  | bool b => cases b <;> exact .of_succ fun _ _ _ _ => rfl
  | natural _ => exact readsBack_natural _
  | string s => exact readsBack_string s
  | array hplain ih => exact readsBack_array ih fun x hx => render_eq_cons (hplain x hx)
  | object _ ih => exact readsBack_object ih

theorem read?_text {depth : Nat} {j : Json} (h : j.Plain depth) : read? j.text = some (ofJson j) := by
  have hvalue := readsBack_of_plain h (3 * j.render.length + 3) [] (by omega) trivial
  rw [List.append_nil] at hvalue
  simp [read?, text, hvalue, skipBlanks]

theorem keepItems?_ofItems {depth : Nat} {xs : List Json}
    (h : ∀ x ∈ xs, keep? depth (ofJson x) = some x) : keepItems? depth (ofItems xs) = some xs := by
  induction xs with
  | nil => rfl
  | cons x xs ih =>
    obtain ⟨hx, hxs⟩ := List.forall_mem_cons.1 h
    simp [ofItems, keepItems?, hx, ih hxs]

theorem keepMembers?_ofMembers {depth : Nat} {ms : List (String × Json)}
    (h : ∀ m ∈ ms, keep? depth (ofJson m.2) = some m.2) :
    keepMembers? depth (ofMembers ms) = some ms := by
  induction ms with
  | nil => rfl
  | cons m ms ih =>
    obtain ⟨hm, hms⟩ := List.forall_mem_cons.1 h
    simp [ofMembers, keepMembers?, hm, ih hms]

theorem keep?_ofJson {depth : Nat} {j : Json} (h : j.Plain depth) :
    keep? depth (ofJson j) = some j := by
  induction h with
  | null => rfl
  | bool b => rfl
  | natural hn =>
    simp [natural, ofJson, keep?, JsonNumber.isInRange_ofNat hn, JsonNumber.numeral_ofNat]
  | string s => rfl
  | array _ ih => simp [ofJson, keep?, keepItems?_ofItems ih]
  | object _ ih => simp [ofJson, keep?, keepMembers?_ofMembers ih]

theorem ofMembers_eq_map (ms : List (String × Json)) :
    ofMembers ms = ms.map fun m => (some m.1, ofJson m.2) := by
  induction ms with
  | nil => rfl
  | cons m ms ih => rw [ofMembers, ih, List.map_cons]

/-- an object all of whose members are wanted is kept as it is -/
theorem pick?_ofJson {members : List (String × Json)} {wanted : List String}
    (h : (Json.object members).Plain depthLimit) (hwanted : ∀ m ∈ members, m.1 ∈ wanted) :
    pick? wanted (ofJson (.object members)) = some (.object members) := by
  have hwhole : ((ofMembers members).all fun m => m.1.isSome) = true := by
    simp [ofMembers_eq_map]
  have hall : ((ofMembers members).filter fun m => (m.1.map wanted.contains).getD false) =
      ofMembers members := by
    rw [List.filter_eq_self, ofMembers_eq_map]
    intro m hm
    obtain ⟨member, hmember, rfl⟩ := List.mem_map.1 hm
    simpa using hwanted member hmember
  rw [ofJson, pick?, if_pos hwhole, hall]
  exact keep?_ofJson h

end JsonText

theorem Json.parse?_text {j : Json} (h : j.Plain JsonText.depthLimit) :
    Json.parse? j.text = some j := by
  rw [parse?, JsonText.read?_text h, Option.bind_some]
  exact JsonText.keep?_ofJson h

end NgapProcedures
