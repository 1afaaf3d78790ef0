import Calculator.Proofs.Request.Target
import Calculator.Proofs.Session.Effect
import Mathlib.Data.List.Nodup

/-!
# The namespace of a session

Every name has one meaning at most.  The table keeps one entry to a name, and
nothing is stored under a built-in or reserved name: the name that is checked is
the one that is stored, for each assignment of a chain.
-/

namespace Calculator

/-! ## Entries of a table -/

namespace Symbols

theorem mem_entries_of_find? {s : Symbols} {name : String} {e : Entry}
    (h : s.find? name = some e) : (name, e) ∈ s.entries := by
  obtain ⟨front, back, hentries, -⟩ := List.lookup_eq_some_iff.mp h
  rw [hentries]
  exact List.mem_append_right _ List.mem_cons_self

theorem mem_entries_store {s : Symbols} {name other : String} {entry e : Entry} :
    (other, e) ∈ (s.store name entry).entries ↔
      (other = name ∧ e = entry) ∨ (other ≠ name ∧ (other, e) ∈ s.entries) := by
  simp only [store, List.mem_cons, Prod.mk.injEq, List.mem_filter, bne_iff_ne, and_comm]

theorem nodup_store {s : Symbols} (h : (s.entries.map Prod.fst).Nodup)
    (name : String) (entry : Entry) :
    ((s.store name entry).entries.map Prod.fst).Nodup := by
  rw [store, List.map_cons, List.nodup_cons]
  constructor
  · intro hmem
    obtain ⟨e, he, heq⟩ := List.mem_map.mp hmem
    rw [List.mem_filter, heq] at he
    simp at he
  · exact h.sublist (List.filter_sublist.map Prod.fst)

end Symbols

namespace Session

variable [Elementary]

/-- The names under which something may be stored. -/
structure Storable (name : String) : Prop where
  form : Target.IsName name
  free : Builtin.isName name = false
  unreserved : name ∉ reserved

/-- The texts that a function may be defined with. -/
structure IsSource (source : String) : Prop where
  nonempty : source ≠ ""
  front : ∀ c, source.toList.head? = some c → Text.isBlank c = false
  back : ∀ c, source.toList.getLast? = some c → Text.isBlank c = false

/-- One entry to a name, storable names and proper sources. -/
structure Orderly (s : Symbols) : Prop where
  nodup : (s.entries.map Prod.fst).Nodup
  storable : ∀ name entry, (name, entry) ∈ s.entries → Storable name
  source : ∀ name d, (name, Entry.function d) ∈ s.entries → IsSource d.source

theorem Storable.find?_builtin {name : String} (h : Storable name) :
    Builtin.find? name = none := by
  have hfree := h.free
  rw [Builtin.isName, Option.isSome_eq_false_iff] at hfree
  exact Option.isNone_iff_eq_none.mp hfree

theorem storable_of_targetName {target : String} {t : Target} (h : targetName target = .ok t) :
    Storable t.name := by
  obtain ⟨hread, hfree, hunreserved⟩ := targetName_eq_ok h
  exact ⟨Target.isName_of_read? hread, hfree, hunreserved⟩

omit [Elementary] in
theorem isSource_of_assignment? {line target rhs : String}
    (hsides : Request.assignment? line = some (target, rhs)) (hne : rhs ≠ "") :
    IsSource rhs := by
  obtain ⟨hfront, hback⟩ := Request.not_isBlank_ends_of_assignment? hsides
  exact ⟨hne, hfront, hback⟩

/-! ## What is kept -/

theorem orderly_new : Orderly {} :=
  ⟨List.nodup_nil, by simp, by simp⟩

theorem orderly_clear (s : Symbols) : Orderly s.clear :=
  ⟨List.nodup_nil, by simp [Symbols.clear], by simp [Symbols.clear]⟩

theorem Orderly.store {s : Symbols} {name : String} {entry : Entry} (h : Orderly s)
    (hname : Storable name) (hsource : ∀ d, entry = .function d → IsSource d.source) :
    Orderly (s.store name entry) := by
  refine ⟨Symbols.nodup_store h.nodup name entry, ?_, ?_⟩
  · intro other e hmem
    rcases Symbols.mem_entries_store.mp hmem with ⟨rfl, -⟩ | ⟨-, hmem⟩
    · exact hname
    · exact h.storable other e hmem
  · intro other d hmem
    rcases Symbols.mem_entries_store.mp hmem with ⟨-, hentry⟩ | ⟨-, hmem⟩
    · exact hsource d hentry.symm
    · exact h.source other d hmem

theorem Orderly.setVariable {s : Symbols} {name : String} (h : Orderly s)
    (hname : Storable name) (v : Float) : Orderly (s.setVariable name v) := by
  refine h.store hname ?_
  intro d hentry
  cases hentry

theorem Orderly.define {s : Symbols} {name source : String} (h : Orderly s)
    (hname : Storable name) (hsource : IsSource source) :
    Orderly (s.define name (.ofSource source)) := by
  refine h.store hname ?_
  intro d hentry
  cases hentry
  exact hsource

theorem Orderly.effect {rates : RateSource} {s after : Symbols} {line : String}
    {result : Except LineError Reply} (h : Orderly s)
    (heffect : Effect rates s line result after) : Orderly after := by
  induction heffect with
  | refused => exact h
  | answered => exact h
  | value => exact ⟨h.nodup, h.storable, h.source⟩
  | defined hsides htarget _ hne =>
      exact h.define (storable_of_targetName htarget) (isSource_of_assignment? hsides hne)
  | assigned _ htarget _ _ _ ih => exact ih.setVariable (storable_of_targetName htarget) _
  | notNumber _ _ _ _ _ ih => exact ih
  | failed _ _ _ _ ih => exact ih

theorem Reachable.orderly {s : Symbols} (h : Reachable s) : Orderly s :=
  h.invariant orderly_new Orderly.effect fun _ => orderly_clear _

/-! ## Meanings of names -/

/-- In an orderly table a name has one entry. -/
theorem Orderly.entry_unique {s : Symbols} (h : Orderly s) {name : String} {e e' : Entry}
    (he : (name, e) ∈ s.entries) (he' : (name, e') ∈ s.entries) : e = e' := by
  have heq := List.inj_on_of_nodup_map h.nodup he he' rfl
  exact (Prod.mk.inj heq).2

/-- In an orderly table a look-up finds what is stored. -/
theorem Orderly.find?_eq_some_iff {s : Symbols} (h : Orderly s) {name : String} {e : Entry} :
    s.find? name = some e ↔ (name, e) ∈ s.entries := by
  constructor
  · exact Symbols.mem_entries_of_find?
  · intro hmem
    cases hfind : s.find? name with
    | none => simpa using List.lookup_eq_none_iff.mp hfind _ hmem
    | some e' => rw [h.entry_unique hmem (Symbols.mem_entries_of_find? hfind)]

/-- What an identifier may stand for; an entry is a variable or a function. -/
inductive Meaning where
  | builtin
  | lastAnswer
  | argument
  | stored (entry : Entry)

/-- Whether a name has a meaning, whatever others it has. -/
def Means (s : Symbols) (name : String) : Meaning → Prop
  | .builtin => Builtin.isName name = true
  | .lastAnswer => name = lastAnswerName
  | .argument => name = freeVariable
  | .stored entry => (name, entry) ∈ s.entries

/-- The meanings that do not depend on the table. -/
def Meaning.isFixed : Meaning → Bool
  | .stored _ => false
  | _ => true

omit [Elementary] in
theorem Meaning.isFixed_or_eq_stored (m : Meaning) :
    m.isFixed = true ∨ ∃ entry, m = .stored entry := by
  cases m with
  | stored entry => exact .inr ⟨entry, rfl⟩
  | _ => exact .inl rfl

theorem Storable.not_means {s : Symbols} {name : String} {m : Meaning} (h : Storable name)
    (hfixed : m.isFixed = true) : ¬ Means s name m := by
  intro hm
  cases m with
  | builtin =>
      have hfree := h.free
      rw [show Builtin.isName name = true from hm] at hfree
      cases hfree
  | lastAnswer =>
      obtain rfl : name = lastAnswerName := hm
      exact h.unreserved (by simp [reserved])
  | argument =>
      obtain rfl : name = freeVariable := hm
      exact h.unreserved (by simp [reserved])
  | stored entry => cases hfixed

theorem fixed_meaning_unique {s : Symbols} {name : String} {m m' : Meaning}
    (hm : Means s name m) (hm' : Means s name m')
    (hfixed : m.isFixed = true) (hfixed' : m'.isFixed = true) : m = m' := by
  have hanswer : Builtin.isName lastAnswerName = false := rfl
  have hargument : Builtin.isName freeVariable = false := rfl
  have hne : lastAnswerName ≠ freeVariable := by decide
  cases m <;> cases m' <;> simp_all [Means, Meaning.isFixed]

theorem Orderly.meaning_unique {s : Symbols} {name : String} {m m' : Meaning}
    (h : Orderly s) (hm : Means s name m) (hm' : Means s name m') : m = m' := by
  rcases m.isFixed_or_eq_stored with hfixed | ⟨entry, rfl⟩
  · rcases m'.isFixed_or_eq_stored with hfixed' | ⟨entry, rfl⟩
    · exact fixed_meaning_unique hm hm' hfixed hfixed'
    · exact absurd hm ((h.storable name entry hm').not_means hfixed)
  · rcases m'.isFixed_or_eq_stored with hfixed' | ⟨entry', rfl⟩
    · exact absurd hm' ((h.storable name entry hm).not_means hfixed')
    · rw [h.entry_unique hm hm']

/-- In every session a name is not both a variable and a function, what is stored
is well named and is what a look-up finds, every function has a proper source, and
an identifier has at most one meaning. -/
theorem namespace_of_reachable {s : Symbols} (h : Reachable s) :
    (∀ name v d, (name, Entry.variable v) ∈ s.entries →
      (name, Entry.function d) ∉ s.entries) ∧
    (∀ name entry, (name, entry) ∈ s.entries →
      Target.IsName name ∧ Builtin.isName name = false ∧ name ∉ reserved) ∧
    (∀ name entry, s.find? name = some entry ↔ (name, entry) ∈ s.entries) ∧
    (∀ name d, (name, Entry.function d) ∈ s.entries → IsSource d.source) ∧
    (∀ name m m', Means s name m → Means s name m' → m = m') := by
  have horderly := h.orderly
  refine ⟨?_, ?_, ?_, horderly.source, ?_⟩
  · intro name v d hv hd
    cases horderly.entry_unique hv hd
  · intro name entry hentry
    have hname := horderly.storable name entry hentry
    exact ⟨hname.form, hname.free, hname.unreserved⟩
  · intro name entry
    exact horderly.find?_eq_some_iff
  · intro name m m' hm hm'
    exact horderly.meaning_unique hm hm'

omit [Elementary] in
/-- Where `f` has been defined, it is no variable. -/
theorem function_of_definition :
    ∃ s d, @Reachable .machine s ∧ ("f", Entry.function d) ∈ s.entries ∧
      ∀ v, ("f", Entry.variable v) ∉ s.entries := by
  let elementary := Elementary.machine
  have hsides : Request.assignment? (trimLine "f(x) = 2") = some ("f(x)", "2") := by
    decide
  have htarget : targetName "f(x)" = .ok ⟨"f", true⟩ := rfl
  have hsymbols : (process (fun _ _ => none) {} "f(x) = 2").symbols =
      ({} : Symbols).define "f" (.ofSource "2") := by
    rw [process_of_assignment? hsides, htarget]
    rfl
  have hreachable := Reachable.new.process (fun _ _ => none) "f(x) = 2"
  rw [hsymbols] at hreachable
  have hmem : ("f", Entry.function (.ofSource "2")) ∈
      (({} : Symbols).define "f" (.ofSource "2")).entries := List.mem_cons_self
  refine ⟨_, _, hreachable, hmem, ?_⟩
  intro v hv
  exact (namespace_of_reachable hreachable).1 "f" v _ hv hmem

end Session
end Calculator
