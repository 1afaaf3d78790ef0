import Calculator.Proofs.Json.Lexical

/-!
# What is read as JSON is JSON

Every reader takes a piece of the grammar from the front of a text.  The three readers of values
call one another with a smaller bound each time, so what they take is found by induction on the
bound, with one step for each reader.
-/

namespace Calculator
namespace Json

theorem exists_gap (cs : List Char) : ∃ gap, IsGap gap ∧ cs = gap ++ skipSpace cs :=
  ⟨cs.takeWhile isSpace, List.all_eq_true.mp List.all_takeWhile,
    List.takeWhile_append_dropWhile.symm⟩

theorem isGap_nil : IsGap [] :=
  fun _ h => (List.not_mem_nil h).elim

theorem IsGap.append {front back : List Char} (hfront : IsGap front) (hback : IsGap back) :
    IsGap (front ++ back) :=
  fun c hc => (List.mem_append.mp hc).elim (hfront c) (hback c)

section Bound

attribute [local simp] readValue? readItems? readMembers?

/-- With no call left nothing is read. -/
theorem read_zero (cs : List Char) :
    readValue? 0 cs = none ∧ readItems? 0 cs = none ∧ readMembers? 0 cs = none := by
  simp

end Bound

/-! ## What is at the front of a text -/

/-- A value stands at the front of the text. -/
def ValueIn (cs : List Char) (v : Json) (rest : List Char) : Prop :=
  ∃ front, cs = front ++ rest ∧ Spells front v

/-- Items and a closing bracket stand at the front of the text. -/
def ItemsIn (cs : List Char) (items : List Json) (rest : List Char) : Prop :=
  ∃ texts : List (List Char × Json), texts ≠ [] ∧ (∀ item ∈ texts, Spells item.1 item.2) ∧
    cs = [','].intercalate (texts.map Prod.fst) ++ ']' :: rest ∧ items = texts.map Prod.snd

/-- Members and a closing brace stand at the front of the text. -/
def MembersIn (cs : List Char) (members : List (Option String × Json)) (rest : List Char) : Prop :=
  ∃ ms : List Member, ms ≠ [] ∧ (∀ m ∈ ms, m.HasKey) ∧ (∀ m ∈ ms, Spells m.valueText m.value) ∧
    cs = [','].intercalate (ms.map Member.text) ++ '}' :: rest ∧
      members = ms.map fun m => (m.key, m.value)

section Gap

variable {gap cs rest : List Char} (hgap : IsGap gap)

include hgap

theorem ValueIn.gap_append {v : Json} (h : ValueIn cs v rest) : ValueIn (gap ++ cs) v rest := by
  obtain ⟨front, rfl, hfront⟩ := h
  refine ⟨gap ++ (front ++ []), by simp, .spaced hgap isGap_nil hfront⟩

/-- White space in front of items belongs to the first of them. -/
theorem ItemsIn.gap_append {items : List Json} (h : ItemsIn cs items rest) :
    ItemsIn (gap ++ cs) items rest := by
  obtain ⟨texts, hne, hspells, rfl, rfl⟩ := h
  obtain ⟨⟨text, v⟩, more, rfl⟩ := List.exists_cons_of_ne_nil hne
  obtain ⟨hfirst, hmore⟩ := List.forall_mem_cons.mp hspells
  refine ⟨(gap ++ (text ++ []), v) :: more, List.cons_ne_nil _ _,
    List.forall_mem_cons.mpr ⟨.spaced hgap isGap_nil hfirst, hmore⟩, ?_, rfl⟩
  cases more <;> simp [List.intercalate_cons_cons]

/-- White space in front of members belongs to the key of the first of them. -/
theorem MembersIn.gap_append {members : List (Option String × Json)}
    (h : MembersIn cs members rest) : MembersIn (gap ++ cs) members rest := by
  obtain ⟨ms, hne, hkeys, hspells, rfl, rfl⟩ := h
  obtain ⟨m, more, rfl⟩ := List.exists_cons_of_ne_nil hne
  obtain ⟨⟨front, core, back, htext, hfront, hback, hcore⟩, hmore⟩ := List.forall_mem_cons.mp hkeys
  obtain ⟨hvalue, hvalues⟩ := List.forall_mem_cons.mp hspells
  refine ⟨{ m with keyText := gap ++ m.keyText } :: more, List.cons_ne_nil _ _,
    List.forall_mem_cons.mpr
      ⟨⟨gap ++ front, core, back, ?_, hgap.append hfront, hback, hcore⟩, hmore⟩,
    List.forall_mem_cons.mpr ⟨hvalue, hvalues⟩, ?_, rfl⟩
  · simp [htext]
  · cases more <;> simp [List.intercalate_cons_cons, Member.text]

end Gap

/-! ## One step of each reader -/

section Step

variable {bound : Nat} {cs rest : List Char}

theorem valueIn_of_readNumber? {v : Json} (h : readNumber? cs = some (v, rest)) :
    ValueIn cs v rest := by
  unfold readNumber? at h
  split at h
  · obtain ⟨⟨d, rest⟩, hread, heq⟩ := Option.map_eq_some_iff.mp h
    cases heq
    obtain ⟨front, rfl, hfront⟩ := readMagnitude?_eq_some hread
    exact ⟨'-' :: front, rfl, .negative hfront⟩
  · obtain ⟨⟨d, rest⟩, hread, heq⟩ := Option.map_eq_some_iff.mp h
    cases heq
    obtain ⟨front, rfl, hfront⟩ := readMagnitude?_eq_some hread
    exact ⟨front, rfl, .positive hfront⟩

theorem valueIn_of_readValue?
    (hitems : ∀ cs items rest, readItems? bound cs = some (items, rest) → ItemsIn cs items rest)
    (hmembers : ∀ cs members rest, readMembers? bound cs = some (members, rest) →
      MembersIn cs members rest)
    {v : Json} (h : readValue? (bound + 1) cs = some (v, rest)) : ValueIn cs v rest := by
  obtain ⟨gap, hgap, hcs⟩ := exists_gap cs
  rw [hcs]
  refine .gap_append hgap ?_
  unfold readValue? at h
  split at h
  · next hskip =>
      cases h
      exact ⟨_, hskip, .null⟩
  · next hskip =>
      cases h
      exact ⟨_, hskip, .yes⟩
  · next hskip =>
      cases h
      exact ⟨_, hskip, .no⟩
  · next hskip =>
      obtain ⟨⟨text, rest⟩, hread, heq⟩ := Option.map_eq_some_iff.mp h
      cases heq
      obtain ⟨core, rfl, hcore⟩ := readString?_eq_some hread
      exact ⟨'"' :: (core ++ ['"']), by simp [hskip], .string hcore⟩
  · next behind hskip =>
      obtain ⟨gap, hgap, hbehind⟩ := exists_gap behind
      split at h
      · next hclose =>
          cases h
          rw [hclose] at hbehind
          exact ⟨'[' :: (gap ++ [']']), by simp [hskip, hbehind], .noItems hgap⟩
      · obtain ⟨⟨items, rest⟩, hread, heq⟩ := Option.map_eq_some_iff.mp h
        cases heq
        have hitems := (hitems _ _ _ hread).gap_append hgap
        rw [← hbehind] at hitems
        obtain ⟨texts, hne, hspells, rfl, rfl⟩ := hitems
        exact ⟨_, by simp [hskip], .array hne hspells⟩
  · next behind hskip =>
      obtain ⟨gap, hgap, hbehind⟩ := exists_gap behind
      split at h
      · next hclose =>
          cases h
          rw [hclose] at hbehind
          exact ⟨'{' :: (gap ++ ['}']), by simp [hskip, hbehind], .noMembers hgap⟩
      · obtain ⟨⟨members, rest⟩, hread, heq⟩ := Option.map_eq_some_iff.mp h
        cases heq
        have hmembers := (hmembers _ _ _ hread).gap_append hgap
        rw [← hbehind] at hmembers
        obtain ⟨ms, hne, hkeys, hspells, rfl, rfl⟩ := hmembers
        exact ⟨_, by simp [hskip], .object hne hkeys hspells⟩
  · exact valueIn_of_readNumber? h

theorem itemsIn_of_readItems?
    (hvalue : ∀ cs v rest, readValue? bound cs = some (v, rest) → ValueIn cs v rest)
    (hitems : ∀ cs items rest, readItems? bound cs = some (items, rest) → ItemsIn cs items rest)
    {items : List Json} (h : readItems? (bound + 1) cs = some (items, rest)) :
    ItemsIn cs items rest := by
  unfold readItems? at h
  obtain ⟨⟨item, behind⟩, hread, hbody⟩ := Option.bind_eq_some_iff.mp h
  obtain ⟨front, rfl, hfront⟩ := hvalue _ _ _ hread
  obtain ⟨gap, hgap, hbehind⟩ := exists_gap behind
  have hspaced : Spells (front ++ gap) item := .spaced isGap_nil hgap hfront
  dsimp only at hbody
  split at hbody
  · next more hcomma =>
      obtain ⟨⟨items, rest⟩, hmore, heq⟩ := Option.bind_eq_some_iff.mp hbody
      cases heq
      obtain ⟨texts, hne, hspells, rfl, rfl⟩ := hitems _ _ _ hmore
      rw [hcomma] at hbehind
      refine ⟨(front ++ gap, item) :: texts, List.cons_ne_nil _ _,
        List.forall_mem_cons.mpr ⟨hspaced, hspells⟩, ?_, rfl⟩
      rw [List.map_cons, List.intercalate_cons_of_ne_nil (by simpa using hne), hbehind]
      simp
  · next hclose =>
      cases hbody
      rw [hclose] at hbehind
      exact ⟨[(front ++ gap, item)], List.cons_ne_nil _ _, List.forall_mem_singleton.mpr hspaced,
        by simp [hbehind], rfl⟩
  · cases hbody

theorem membersIn_of_readMembers?
    (hvalue : ∀ cs v rest, readValue? bound cs = some (v, rest) → ValueIn cs v rest)
    (hmembers : ∀ cs members rest, readMembers? bound cs = some (members, rest) →
      MembersIn cs members rest)
    {members : List (Option String × Json)}
    (h : readMembers? (bound + 1) cs = some (members, rest)) : MembersIn cs members rest := by
  obtain ⟨gap, hgap, hcs⟩ := exists_gap cs
  unfold readMembers? at h
  split at h
  · next hquote =>
      obtain ⟨⟨key, behind⟩, hread, hbody⟩ := Option.bind_eq_some_iff.mp h
      obtain ⟨core, rfl, hcore⟩ := readString?_eq_some hread
      obtain ⟨gap', hgap', hbehind⟩ := exists_gap behind
      dsimp only at hbody
      split at hbody
      · next more hcolon =>
          obtain ⟨⟨value, behind'⟩, hreadValue, htail⟩ := Option.bind_eq_some_iff.mp hbody
          obtain ⟨front, rfl, hfront⟩ := hvalue _ _ _ hreadValue
          obtain ⟨gap'', hgap'', hbehind'⟩ := exists_gap behind'
          rw [hquote, hbehind, hcolon] at hcs
          -- The first member, which takes the white space up to what follows it.
          let m : Member := ⟨gap ++ '"' :: (core ++ '"' :: gap'), key, front ++ gap'', value⟩
          have hkey : m.HasKey := ⟨gap, core, gap', rfl, hgap, hgap', hcore⟩
          have hspaced : Spells m.valueText m.value := .spaced isGap_nil hgap'' hfront
          dsimp only at htail
          split at htail
          · next hcomma =>
              obtain ⟨⟨members, rest⟩, hmore, heq⟩ := Option.bind_eq_some_iff.mp htail
              cases heq
              obtain ⟨ms, hne, hkeys, hspells, rfl, rfl⟩ := hmembers _ _ _ hmore
              rw [hbehind', hcomma] at hcs
              refine ⟨m :: ms, List.cons_ne_nil _ _, List.forall_mem_cons.mpr ⟨hkey, hkeys⟩,
                List.forall_mem_cons.mpr ⟨hspaced, hspells⟩, ?_, rfl⟩
              rw [List.map_cons, List.intercalate_cons_of_ne_nil (by simpa using hne), hcs]
              simp [m, Member.text]
          · next hclose =>
              cases htail
              rw [hbehind', hclose] at hcs
              exact ⟨[m], List.cons_ne_nil _ _, List.forall_mem_singleton.mpr hkey,
                List.forall_mem_singleton.mpr hspaced, by simp [hcs, m, Member.text], rfl⟩
          · cases htail
      · cases hbody
  · cases h

end Step

/-! ## All readers -/

theorem takes_of_read (bound : Nat) :
    (∀ cs v rest, readValue? bound cs = some (v, rest) → ValueIn cs v rest) ∧
    (∀ cs items rest, readItems? bound cs = some (items, rest) → ItemsIn cs items rest) ∧
    ∀ cs members rest, readMembers? bound cs = some (members, rest) →
      MembersIn cs members rest := by
  induction bound with
  | zero =>
      refine ⟨fun cs _ _ h => ?_, fun cs _ _ h => ?_, fun cs _ _ h => ?_⟩
      · rw [(read_zero cs).1] at h
        cases h
      · rw [(read_zero cs).2.1] at h
        cases h
      · rw [(read_zero cs).2.2] at h
        cases h
  | succ bound ih =>
      obtain ⟨hvalue, hitems, hmembers⟩ := ih
      exact ⟨fun _ _ _ => valueIn_of_readValue? hitems hmembers,
        fun _ _ _ => itemsIn_of_readItems? hvalue hitems,
        fun _ _ _ => membersIn_of_readMembers? hvalue hmembers⟩

/-- What is read from a whole text is spelled by it. -/
theorem spells_of_read? {text : String} {v : Json} (h : read? text = some v) :
    Spells text.toList v := by
  obtain ⟨⟨v, rest⟩, hread, h⟩ := Option.bind_eq_some_iff.mp h
  dsimp only at h
  split at h
  · next hempty =>
      cases h
      obtain ⟨front, htext, hfront⟩ := (takes_of_read _).1 _ _ _ hread
      obtain ⟨gap, hgap, hrest⟩ := exists_gap rest
      rw [List.isEmpty_iff.mp hempty, List.append_nil] at hrest
      rw [htext, hrest]
      exact .spaced isGap_nil hgap hfront
  · cases h

end Json
end Calculator
