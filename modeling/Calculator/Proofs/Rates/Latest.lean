import Mathlib.Data.List.Forall2
import Calculator.Proofs.Json.Completeness
import Calculator.Rates.Latest

/-!
# Which rates a text lists

What counts as the rates of a JSON value, said without the reader: a map from codes to numbers,
as the one member with the name for it or as the one item of an array.  Without that member, or
item, there are no rates.  A text that is no JSON, or holds anything else, is refused as a whole.
-/

namespace Calculator
namespace LatestRates

/-! ## Entries and members -/

/-- The entry is there, and no later one has its code. -/
def HasLast (entries : List (String × Float)) (code : String) (v : Float) : Prop :=
  ∃ front back, entries = front ++ (code, v) :: back ∧ ∀ entry ∈ back, entry.1 ≠ code

/-- The rate of a code is that of the last entry with it. -/
theorem find?_eq_some_iff {latest : LatestRates} {code : String} {v : Float} :
    latest.find? code = some v ↔ HasLast latest.entries code v := by
  rw [find?, List.lookup_eq_some_iff]
  constructor
  · rintro ⟨back, front, hentries, hback⟩
    refine ⟨front.reverse, back.reverse, ?_, fun entry hentry heq => ?_⟩
    · rw [← List.reverse_inj, hentries]
      simp
    · simpa [heq] using hback entry (List.mem_reverse.mp hentry)
  · rintro ⟨front, back, hentries, hback⟩
    refine ⟨back.reverse, front.reverse, ?_, fun entry hentry => ?_⟩
    · rw [hentries]
      simp
    · exact bne_iff_ne.mpr (hback entry (List.mem_reverse.mp hentry)).symm

/-- A partial function is defined on a whole list when it is on every item. -/
theorem mapM_eq_some_iff {α β : Type} (f : α → Option β) {as : List α} {bs : List β} :
    as.mapM f = some bs ↔ List.Forall₂ (fun a b => f a = some b) as bs := by
  induction as generalizing bs with
  | nil => cases bs <;> simp
  | cons a as ih =>
      rw [List.mapM_cons]
      constructor
      · intro h
        obtain ⟨b, hb, hrest⟩ := Option.bind_eq_some_iff.mp h
        obtain ⟨bs', hbs, heq⟩ := Option.bind_eq_some_iff.mp hrest
        cases heq
        exact .cons hb (ih.mp hbs)
      · rintro (_ | ⟨hb, hbs⟩)
        rw [hb, ih.mpr hbs]
        rfl

section Members

variable {members : List (Option String × Json)}

theorem any_isNone_iff : members.any (·.1.isNone) = true ↔ ¬ ∀ m ∈ members, m.1 ≠ none := by
  rw [List.any_eq_true]
  simp only [Option.isNone_iff_eq_none, ne_eq, not_forall, not_not, exists_prop]

theorem filter_eq_nil_iff :
    members.filter (·.1 == some memberName) = [] ↔ ∀ m ∈ members, m.1 ≠ some memberName := by
  simp only [List.filter_eq_nil_iff, beq_iff_eq, ne_eq]

theorem filter_eq_singleton_iff {key : Option String} {rates : Json} :
    members.filter (·.1 == some memberName) = [(key, rates)] ↔
      key = some memberName ∧ ∃ front back, members = front ++ (key, rates) :: back ∧
        ∀ m ∈ front ++ back, m.1 ≠ some memberName := by
  rw [List.filter_eq_cons_iff]
  constructor
  · rintro ⟨front, back, rfl, hfront, hname, hback⟩
    refine ⟨beq_iff_eq.mp hname, front, back, rfl, List.forall_mem_append.mpr ⟨?_, ?_⟩⟩
    · exact fun m hm heq => hfront m hm (beq_iff_eq.mpr heq)
    · exact filter_eq_nil_iff.mp hback
  · rintro ⟨hname, front, back, rfl, hother⟩
    obtain ⟨hfront, hback⟩ := List.forall_mem_append.mp hother
    exact ⟨front, back, rfl, fun m hm heq => hfront m hm (beq_iff_eq.mp heq),
      beq_iff_eq.mpr hname, filter_eq_nil_iff.mpr hback⟩

end Members

/-! ## What a value lists -/

variable [Json.Doubles]

/-- The value is a number, and its double is finite. -/
def IsRate (json : Json) (v : Float) : Prop :=
  ∃ negative d, json = .number negative d ∧ (Json.Doubles.ofDecimal d).isFinite = true ∧
    v = Binary64.withSign negative (Json.Doubles.ofDecimal d)

/-- The value maps codes to rates, and these are the entries in their order. -/
def IsMap (json : Json) (entries : List (String × Float)) : Prop :=
  ∃ members, json = .object members ∧
    List.Forall₂ (fun member entry => member.1 = some entry.1 ∧ IsRate member.2 entry.2)
      members entries

/-- The value lists the rates.  All names of members have characters, and none but one of them
is the name for the rates. -/
inductive Lists : Json → List (String × Float) → Prop where
  | missing {members : List (Option String × Json)} (hkeys : ∀ m ∈ members, m.1 ≠ none)
      (hother : ∀ m ∈ members, m.1 ≠ some memberName) : Lists (.object members) []
  | member {members front back : List (Option String × Json)} {rates : Json}
      {entries : List (String × Float)} (hkeys : ∀ m ∈ members, m.1 ≠ none)
      (hmembers : members = front ++ (some memberName, rates) :: back)
      (hother : ∀ m ∈ front ++ back, m.1 ≠ some memberName) (hrates : IsMap rates entries) :
      Lists (.object members) entries
  | empty : Lists (.array []) []
  | item {rates : Json} {entries : List (String × Float)} (hrates : IsMap rates entries) :
      Lists (.array [rates]) entries

/-! ## Reading -/

theorem toFloat?_eq_some_iff {json : Json} {v : Float} :
    json.toFloat? = some v ↔ IsRate json v := by
  unfold Json.toFloat?
  constructor
  · intro h
    split at h
    · next negative d =>
        dsimp only at h
        split at h
        · next hfinite =>
            cases h
            exact ⟨negative, d, rfl, hfinite, rfl⟩
        · cases h
    · cases h
  · rintro ⟨negative, d, rfl, hfinite, rfl⟩
    exact if_pos hfinite

theorem ofMap?_eq_some_iff {json : Json} {latest : LatestRates} :
    ofMap? json = some latest ↔ IsMap json latest.entries := by
  have hentry : ∀ (member : Option String × Json) (entry : String × Float),
      (do some (← member.1, ← member.2.toFloat?)) = some entry ↔
        member.1 = some entry.1 ∧ IsRate member.2 entry.2 := by
    rintro ⟨key, value⟩ ⟨code, v⟩
    rw [← toFloat?_eq_some_iff]
    cases key <;> cases value.toFloat? <;> simp
  unfold ofMap?
  constructor
  · intro h
    split at h
    · next members =>
        obtain ⟨entries, hentries, rfl⟩ := Option.map_eq_some_iff.mp h
        simp only [mapM_eq_some_iff, hentry] at hentries
        exact ⟨members, rfl, hentries⟩
    · cases h
  · rintro ⟨members, rfl, hentries⟩
    refine Option.map_eq_some_iff.mpr ⟨latest.entries, ?_, rfl⟩
    simp only [mapM_eq_some_iff, hentry]
    exact hentries

/-- A value is read as the rates that it lists. -/
theorem ofJson?_eq_some_iff {json : Json} {latest : LatestRates} :
    ofJson? json = some latest ↔ Lists json latest.entries := by
  constructor
  · intro h
    unfold ofJson? at h
    split at h
    · split at h
      · cases h
      · next hkeys =>
          rw [any_isNone_iff, not_not] at hkeys
          split at h
          · next hfilter =>
              cases h
              exact .missing hkeys (filter_eq_nil_iff.mp hfilter)
          · next hfilter =>
              obtain ⟨rfl, front, back, hmembers, hother⟩ := filter_eq_singleton_iff.mp hfilter
              exact .member hkeys hmembers hother (ofMap?_eq_some_iff.mp h)
          · cases h
    · cases h
      exact .empty
    · exact .item (ofMap?_eq_some_iff.mp h)
    · cases h
  · obtain ⟨entries⟩ := latest
    rintro (⟨hkeys, hother⟩ | ⟨hkeys, hmembers, hother, hrates⟩ | _ | hrates)
    · rw [ofJson?, if_neg (by rwa [any_isNone_iff, not_not]), filter_eq_nil_iff.mpr hother]
    · rw [ofJson?, if_neg (by rwa [any_isNone_iff, not_not]),
        filter_eq_singleton_iff.mpr ⟨rfl, _, _, hmembers, hother⟩]
      exact ofMap?_eq_some_iff.mpr hrates
    · rfl
    · exact ofMap?_eq_some_iff.mpr hrates

/-- A body gives the rates that its text lists. -/
theorem read?_eq_some_iff [Json.Reader] (hstrict : Json.Reader.IsStrict) {body : ByteArray}
    {latest : LatestRates} :
    read? body = some latest ↔
      ∃ (text : String) (json : Json), body = text.toUTF8 ∧ Json.Spells text.toList json ∧
        Lists json latest.entries := by
  have hbytes : ∀ text : String, String.fromUTF8? body = some text ↔ body = text.toUTF8 := by
    intro text
    rw [String.fromUTF8?]
    constructor
    · intro h
      split at h
      · cases h
        rfl
      · cases h
    · rintro rfl
      exact dif_pos text.isValidUTF8
  unfold read?
  constructor
  · intro h
    obtain ⟨text, htext, hrest⟩ := Option.bind_eq_some_iff.mp h
    obtain ⟨json, hjson, hlists⟩ := Option.bind_eq_some_iff.mp hrest
    exact ⟨text, json, (hbytes text).mp htext, (hstrict.value?_eq_some_iff text json).mp hjson,
      ofJson?_eq_some_iff.mp hlists⟩
  · rintro ⟨text, json, hbody, hjson, hlists⟩
    refine Option.bind_eq_some_iff.mpr ⟨text, (hbytes text).mpr hbody, ?_⟩
    exact Option.bind_eq_some_iff.mpr
      ⟨json, (hstrict.value?_eq_some_iff text json).mpr hjson, ofJson?_eq_some_iff.mpr hlists⟩

end LatestRates
end Calculator
