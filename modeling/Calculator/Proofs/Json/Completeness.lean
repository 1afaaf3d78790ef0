import Calculator.Proofs.Json.Soundness

/-!
# All of JSON is read

A text in the grammar is read as what it stands for, by induction on the grammar.  The reader
may leave white space behind a value that the grammar counts as part of it, so what is left is
compared without the white space at its front.  A bound of twice the length is enough: of two
nested calls of the readers one takes a character.
-/

namespace Calculator
namespace Json

/-! ## White space -/

theorem skipSpace_append {gap : List Char} (hgap : IsGap gap) (cs : List Char) :
    skipSpace (gap ++ cs) = skipSpace cs :=
  List.dropWhile_append_of_pos hgap

theorem skipSpace_cons {c : Char} (hc : isSpace c = false) (cs : List Char) :
    skipSpace (c :: cs) = c :: cs := by
  rw [skipSpace, List.dropWhile_cons, hc, if_neg Bool.false_ne_true]

theorem skipSpace_skipSpace (cs : List Char) : skipSpace (skipSpace cs) = skipSpace cs :=
  List.dropWhile_idempotent _ _

theorem isSpace_of_isDigit {c : Char} (hc : c.isDigit = true) : isSpace c = false := by
  rw [← Bool.not_eq_true]
  intro hspace
  simp only [isSpace, Bool.or_eq_true, beq_iff_eq] at hspace
  rcases hspace with ((rfl | rfl) | rfl) | rfl <;> exact absurd hc (by decide)

/-- White space in front of a value, of items or of members is skipped. -/
theorem readValue?_of_skipSpace {cs ds : List Char} (h : skipSpace cs = skipSpace ds)
    (bound : Nat) : readValue? bound cs = readValue? bound ds := by
  cases bound with
  | zero => rw [(read_zero cs).1, (read_zero ds).1]
  | succ bound => rw [readValue?, readValue?, h]

theorem readItems?_skipSpace (bound : Nat) (cs : List Char) :
    readItems? bound (skipSpace cs) = readItems? bound cs := by
  cases bound with
  | zero => rw [(read_zero _).2.1, (read_zero _).2.1]
  | succ bound =>
      rw [readItems?, readItems?, readValue?_of_skipSpace (skipSpace_skipSpace cs)]

theorem readMembers?_skipSpace (bound : Nat) (cs : List Char) :
    readMembers? bound (skipSpace cs) = readMembers? bound cs := by
  cases bound with
  | zero => rw [(read_zero _).2.2, (read_zero _).2.2]
  | succ bound => rw [readMembers?, readMembers?, skipSpace_skipSpace]

theorem endsNumber_gap_append {gap rest : List Char} (hgap : IsGap gap) (h : EndsNumber rest) :
    EndsNumber (gap ++ rest) := by
  cases gap with
  | nil => exact h
  | cons d gap =>
      rintro c ⟨⟩
      have hspace := hgap d List.mem_cons_self
      simp only [isSpace, Bool.or_eq_true, beq_iff_eq] at hspace
      rcases hspace with ((rfl | rfl) | rfl) | rfl <;> decide

theorem endsNumber_cons {c : Char} (hc : c = ',' ∨ c = ']' ∨ c = '}') (rest : List Char) :
    EndsNumber (c :: rest) := by
  rintro d ⟨⟩
  rcases hc with rfl | rfl | rfl <;> decide

/-! ## Values -/

/-- The text of a value is read as the value, up to white space behind it. -/
def IsRead (cs : List Char) (v : Json) : Prop :=
  ∀ bound, 2 * cs.length ≤ bound → ∀ rest, EndsNumber rest →
    ∃ rest', readValue? bound (cs ++ rest) = some (v, rest') ∧ skipSpace rest' = skipSpace rest

/-- A value begins with a character that closes nothing, behind white space. -/
theorem Spells.exists_first {cs : List Char} {v : Json} (h : Spells cs v) :
    ∃ gap c tail, cs = gap ++ c :: tail ∧ IsGap gap ∧ isSpace c = false ∧ c ≠ ']' := by
  have hmagnitude : ∀ {cs : List Char} {d : Decimal}, IsMagnitude cs d →
      ∃ c tail, cs = c :: tail ∧ isSpace c = false ∧ c ≠ ']' := by
    intro cs d h
    obtain ⟨c, tail, rfl, hc⟩ := h.exists_cons
    exact ⟨c, tail, rfl, isSpace_of_isDigit hc, by rintro rfl; exact absurd hc (by decide)⟩
  induction h with
  | positive h =>
      obtain ⟨c, tail, rfl, hc⟩ := hmagnitude h
      exact ⟨[], c, tail, rfl, isGap_nil, hc⟩
  | spaced hfront _ _ ih =>
      obtain ⟨gap, c, tail, rfl, hgap, hc⟩ := ih
      exact ⟨_, c, _, by simp only [List.append_assoc, List.cons_append]; rw [← List.append_assoc],
        hfront.append hgap, hc⟩
  | _ => exact ⟨[], _, _, rfl, isGap_nil, by decide, by decide⟩

theorem isRead_scalar {c : Char} {tail : List Char} {v : Json}
    (h : ∀ bound rest, EndsNumber rest →
      readValue? (bound + 1) (c :: tail ++ rest) = some (v, rest)) : IsRead (c :: tail) v := by
  intro bound hbound rest hrest
  obtain ⟨bound, rfl⟩ : ∃ b, bound = b + 1 := ⟨bound - 1, by simp at hbound; omega⟩
  exact ⟨rest, h bound rest hrest, rfl⟩

theorem readValue?_of_isDigit {c : Char} (hc : c.isDigit = true) (bound : Nat) (cs : List Char) :
    readValue? (bound + 1) (c :: cs) =
      (readMagnitude? (c :: cs)).map fun (d, rest) => (number false d, rest) := by
  have hne : ∀ {d : Char} {ds : List Char}, c :: cs = d :: ds → d.isDigit = false → False := by
    intro d ds heq hd
    rw [← (List.cons.inj heq).1, hc] at hd
    cases hd
  rw [readValue?, skipSpace_cons (isSpace_of_isDigit hc)]
  split
  case h_7 =>
    unfold readNumber?
    split
    · next heq => exact (hne heq (by decide)).elim
    · rfl
  all_goals
    next heq => exact (hne heq (by decide)).elim

theorem readValue?_bracket (bound : Nat) (cs : List Char) :
    readValue? (bound + 1) ('[' :: cs) =
      match skipSpace cs with
      | ']' :: rest => some (array [], rest)
      | rest => (readItems? bound rest).map fun (items, rest) => (array items, rest) := by
  rw [readValue?, skipSpace_cons (by decide)]
  rfl

theorem readValue?_brace (bound : Nat) (cs : List Char) :
    readValue? (bound + 1) ('{' :: cs) =
      match skipSpace cs with
      | '}' :: rest => some (object [], rest)
      | rest => (readMembers? bound rest).map fun (members, rest) => (object members, rest) := by
  rw [readValue?, skipSpace_cons (by decide)]
  rfl

theorem IsMagnitude.isRead_positive {cs : List Char} {d : Decimal} (h : IsMagnitude cs d) :
    IsRead cs (.number false d) := by
  obtain ⟨c, tail, rfl, hc⟩ := h.exists_cons
  refine isRead_scalar fun bound rest hrest => ?_
  rw [List.cons_append, readValue?_of_isDigit hc, ← List.cons_append,
    h.readMagnitude?_append hrest]
  rfl

theorem IsMagnitude.isRead_negative {cs : List Char} {d : Decimal} (h : IsMagnitude cs d) :
    IsRead ('-' :: cs) (.number true d) := by
  refine isRead_scalar fun bound rest hrest => ?_
  rw [List.cons_append, readValue?, skipSpace_cons (by decide)]
  change readNumber? ('-' :: (cs ++ rest)) = _
  rw [readNumber?, h.readMagnitude?_append hrest]
  rfl

theorem IsString.isRead {cs : List Char} {text : Option String} (h : IsString cs text) :
    IsRead ('"' :: (cs ++ ['"'])) (.string text) := by
  refine isRead_scalar fun bound rest _ => ?_
  rw [List.cons_append, List.append_assoc, readValue?, skipSpace_cons (by decide)]
  change (readString? (cs ++ '"' :: rest)).map _ = _
  rw [h.readString?_append]
  rfl

/-! ## Items and members -/

theorem readItems?_append {texts : List (List Char × Json)} (hne : texts ≠ [])
    (h : ∀ item ∈ texts, IsRead item.1 item.2) (bound : Nat)
    (hbound : 2 * ([','].intercalate (texts.map Prod.fst)).length + 1 ≤ bound)
    (rest : List Char) :
    readItems? bound ([','].intercalate (texts.map Prod.fst) ++ ']' :: rest) =
      some (texts.map Prod.snd, rest) := by
  induction texts generalizing bound with
  | nil => exact absurd rfl hne
  | cons item more ih =>
      obtain ⟨hitem, hmore⟩ := List.forall_mem_cons.mp h
      obtain ⟨bound, rfl⟩ : ∃ b, bound = b + 1 := ⟨bound - 1, by omega⟩
      by_cases hlast : more = []
      · subst hlast
        simp only [List.map_cons, List.map_nil, List.intercalate_singleton] at hbound ⊢
        obtain ⟨rest', hread, hskip⟩ := hitem bound (by omega) (']' :: rest)
          (endsNumber_cons (by simp) rest)
        rw [skipSpace_cons (by decide)] at hskip
        rw [readItems?, hread]
        simp [hskip]
      · rw [List.map_cons, List.intercalate_cons_of_ne_nil (by simpa using hlast)] at hbound ⊢
        simp only [List.append_assoc, List.singleton_append, List.length_append,
          List.length_cons] at hbound ⊢
        obtain ⟨rest', hread, hskip⟩ := hitem bound (by omega)
          (',' :: ([','].intercalate (more.map Prod.fst) ++ ']' :: rest))
          (endsNumber_cons (by simp) _)
        rw [skipSpace_cons (by decide)] at hskip
        rw [List.cons_append, readItems?, hread]
        simp [hskip, ih hlast hmore bound (by omega)]

/-- A member is the last one in front of a brace, and others follow it behind a comma. -/
theorem Member.HasKey.readMembers?_append {m : Member} (h : m.HasKey) {bound : Nat}
    {rest rest' more : List Char}
    (hvalue : readValue? bound (m.valueText ++ rest) = some (m.value, rest')) :
    (skipSpace rest' = '}' :: more →
      readMembers? (bound + 1) (m.text ++ rest) = some ([(m.key, m.value)], more)) ∧
    ∀ members last, skipSpace rest' = ',' :: more → readMembers? bound more = some (members, last) →
      readMembers? (bound + 1) (m.text ++ rest) = some ((m.key, m.value) :: members, last) := by
  obtain ⟨front, core, back, htext, hfront, hback, hcore⟩ := h
  have hquote : skipSpace (m.text ++ rest) =
      '"' :: (core ++ '"' :: (back ++ ':' :: (m.valueText ++ rest))) := by
    simp only [Member.text, htext, List.append_assoc, List.cons_append]
    rw [skipSpace_append hfront, skipSpace_cons (by decide)]
  have hcolon : skipSpace (back ++ ':' :: (m.valueText ++ rest)) =
      ':' :: (m.valueText ++ rest) := by
    rw [skipSpace_append hback, skipSpace_cons (by decide)]
  rw [readMembers?, hquote]
  constructor
  · intro hbrace
    simp [hcore.readString?_append, hcolon, hvalue, hbrace]
  · intro members last hcomma hmore
    simp [hcore.readString?_append, hcolon, hvalue, hcomma, hmore]

theorem readMembers?_append {ms : List Member} (hne : ms ≠ []) (hkeys : ∀ m ∈ ms, m.HasKey)
    (h : ∀ m ∈ ms, IsRead m.valueText m.value) (bound : Nat)
    (hbound : 2 * ([','].intercalate (ms.map Member.text)).length + 1 ≤ bound)
    (rest : List Char) :
    readMembers? bound ([','].intercalate (ms.map Member.text) ++ '}' :: rest) =
      some (ms.map fun m => (m.key, m.value), rest) := by
  have hlength : ∀ m : Member, m.valueText.length ≤ m.text.length := by
    intro m
    simp [Member.text]
    omega
  induction ms generalizing bound with
  | nil => exact absurd rfl hne
  | cons m more ih =>
      obtain ⟨hkey, hkeys⟩ := List.forall_mem_cons.mp hkeys
      obtain ⟨hm, hmore⟩ := List.forall_mem_cons.mp h
      obtain ⟨bound, rfl⟩ : ∃ b, bound = b + 1 := ⟨bound - 1, by omega⟩
      have hle := hlength m
      by_cases hlast : more = []
      · subst hlast
        simp only [List.map_cons, List.map_nil, List.intercalate_singleton] at hbound ⊢
        obtain ⟨rest', hread, hskip⟩ := hm bound (by omega) ('}' :: rest)
          (endsNumber_cons (by simp) rest)
        rw [skipSpace_cons (by decide)] at hskip
        exact (hkey.readMembers?_append hread).1 hskip
      · rw [List.map_cons, List.intercalate_cons_of_ne_nil (by simpa using hlast)] at hbound ⊢
        simp only [List.append_assoc, List.singleton_append, List.length_append,
          List.length_cons] at hbound ⊢
        obtain ⟨rest', hread, hskip⟩ := hm bound (by omega)
          (',' :: ([','].intercalate (more.map Member.text) ++ '}' :: rest))
          (endsNumber_cons (by simp) _)
        rw [skipSpace_cons (by decide)] at hskip
        exact (hkey.readMembers?_append hread).2 _ _ hskip
          (ih hlast hkeys hmore bound (by omega))

/-! ## Texts -/

theorem isRead_array {texts : List (List Char × Json)} (hne : texts ≠ [])
    (hspells : ∀ item ∈ texts, Spells item.1 item.2) (h : ∀ item ∈ texts, IsRead item.1 item.2) :
    IsRead ('[' :: ([','].intercalate (texts.map Prod.fst) ++ [']']))
      (.array (texts.map Prod.snd)) := by
  intro bound hbound rest _
  obtain ⟨bound, rfl⟩ : ∃ b, bound = b + 1 := ⟨bound - 1, by simp at hbound; omega⟩
  have hitems := readItems?_append hne h bound (by simp at hbound; omega) rest
  -- No bracket follows at once, since the first item begins with something else.
  have hfirst : ∀ tail, skipSpace ([','].intercalate (texts.map Prod.fst) ++ ']' :: rest) ≠
      ']' :: tail := by
    obtain ⟨⟨text, v⟩, more, rfl⟩ := List.exists_cons_of_ne_nil hne
    obtain ⟨gap, c, tail, htext, hgap, hspace, hbracket⟩ :=
      (hspells _ List.mem_cons_self).exists_first
    intro tail' heq
    have hcons : ∃ behind, [','].intercalate (((text, v) :: more).map Prod.fst) ++ ']' :: rest =
        gap ++ c :: behind := by
      dsimp only at htext
      cases more <;> exact ⟨_, by simp [htext, List.intercalate_cons_cons]; rfl⟩
    obtain ⟨behind, hbehind⟩ := hcons
    rw [hbehind, skipSpace_append hgap, skipSpace_cons hspace] at heq
    exact hbracket (List.cons.inj heq).1
  refine ⟨rest, ?_, rfl⟩
  rw [← readItems?_skipSpace] at hitems
  rw [List.cons_append, List.append_assoc, List.singleton_append, readValue?_bracket]
  split
  · next heq => exact (hfirst _ heq).elim
  · rw [hitems]
    rfl

theorem isRead_object {ms : List Member} (hne : ms ≠ []) (hkeys : ∀ m ∈ ms, m.HasKey)
    (h : ∀ m ∈ ms, IsRead m.valueText m.value) :
    IsRead ('{' :: ([','].intercalate (ms.map Member.text) ++ ['}']))
      (.object (ms.map fun m => (m.key, m.value))) := by
  intro bound hbound rest _
  obtain ⟨bound, rfl⟩ : ∃ b, bound = b + 1 := ⟨bound - 1, by simp at hbound; omega⟩
  have hmembers := readMembers?_append hne hkeys h bound (by simp at hbound; omega) rest
  -- No brace follows at once, since the first key begins with a quote.
  have hfirst : ∀ tail, skipSpace ([','].intercalate (ms.map Member.text) ++ '}' :: rest) ≠
      '}' :: tail := by
    obtain ⟨m, more, rfl⟩ := List.exists_cons_of_ne_nil hne
    obtain ⟨front, core, back, htext, hfront, -⟩ := hkeys m List.mem_cons_self
    intro tail heq
    have hcons : ∃ behind, [','].intercalate ((m :: more).map Member.text) ++ '}' :: rest =
        front ++ '"' :: behind := by
      cases more <;> exact ⟨_, by simp [Member.text, htext, List.intercalate_cons_cons]; rfl⟩
    obtain ⟨behind, hbehind⟩ := hcons
    rw [hbehind, skipSpace_append hfront, skipSpace_cons (by decide)] at heq
    exact absurd (List.cons.inj heq).1 (by decide)
  refine ⟨rest, ?_, rfl⟩
  rw [← readMembers?_skipSpace] at hmembers
  rw [List.cons_append, List.append_assoc, List.singleton_append, readValue?_brace]
  split
  · next heq => exact (hfirst _ heq).elim
  · rw [hmembers]
    rfl

/-! ## Texts -/

theorem Spells.isRead {cs : List Char} {v : Json} (h : Spells cs v) : IsRead cs v := by
  induction h with
  | null =>
      refine isRead_scalar fun bound rest _ => ?_
      rw [readValue?, List.cons_append, skipSpace_cons (by decide)]
      rfl
  | yes =>
      refine isRead_scalar fun bound rest _ => ?_
      rw [readValue?, List.cons_append, skipSpace_cons (by decide)]
      rfl
  | no =>
      refine isRead_scalar fun bound rest _ => ?_
      rw [readValue?, List.cons_append, skipSpace_cons (by decide)]
      rfl
  | positive h => exact h.isRead_positive
  | negative h => exact h.isRead_negative
  | string h => exact h.isRead
  | noItems hgap =>
      refine isRead_scalar fun bound rest _ => ?_
      rw [List.cons_append, List.append_assoc, readValue?_bracket, skipSpace_append hgap,
        List.singleton_append, skipSpace_cons (by decide)]
      rfl
  | array hne hspells ih => exact isRead_array hne hspells ih
  | noMembers hgap =>
      refine isRead_scalar fun bound rest _ => ?_
      rw [List.cons_append, List.append_assoc, readValue?_brace, skipSpace_append hgap,
        List.singleton_append, skipSpace_cons (by decide)]
      rfl
  | object hne hkeys _ ih => exact isRead_object hne hkeys ih
  | @spaced front cs back v hfront hback _ ih =>
      intro bound hbound rest hrest
      simp only [List.length_append] at hbound
      obtain ⟨rest', hread, hskip⟩ := ih bound (by omega) (back ++ rest)
        (endsNumber_gap_append hback hrest)
      refine ⟨rest', ?_, hskip.trans (skipSpace_append hback rest)⟩
      rw [List.append_assoc, List.append_assoc,
        readValue?_of_skipSpace (skipSpace_append hfront (cs ++ (back ++ rest))), hread]

/-- A text is read as a value exactly when it spells the value. -/
theorem read?_eq_some_iff {text : String} {v : Json} :
    read? text = some v ↔ Spells text.toList v := by
  refine ⟨spells_of_read?, fun h => ?_⟩
  obtain ⟨rest, hread, hskip⟩ := h.isRead (2 * text.toList.length + 2) (by omega) []
    (fun _ hc => by cases hc)
  rw [List.append_nil] at hread
  have hempty : skipSpace rest = [] := hskip
  unfold read?
  simp [hread, hempty]

/-- The reader takes a text for the value that it spells, and every other text for none. -/
structure Reader.IsStrict [Reader] : Prop where
  value?_eq_some_iff : ∀ (text : String) (v : Json),
    Reader.value? text = some v ↔ Spells text.toList v

theorem isStrict_strictReader : @Reader.IsStrict strictReader :=
  ⟨fun _ _ => read?_eq_some_iff⟩

end Json
end Calculator
