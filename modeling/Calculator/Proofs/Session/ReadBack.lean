import Calculator.Proofs.Session.Variable

/-!
# Reading a stored name back

A name keeps its value until a line stores something else under it.  Which names a
line stores under can be read off its reply: those of its chain if it binds, the one
name if it defines a function, and none otherwise.
-/

namespace Calculator
namespace Session

variable [Elementary]

/-- The line succeeds in storing something under the name, as one of the targets of
its chain or as the name of a function. -/
def Rebinds (rates : RateSource) (s : Symbols) (line name : String) : Prop :=
  (∃ first v, (process rates s line).result = .ok (.assigned first v) ∧
    name ∈ (Request.pieces (trimLine line)).dropLast) ∨
  (process rates s line).result = .ok (.defined name)

/-- Lines that never rebind the name lead from one table to the other, each with the
rates of its time. -/
inductive Continues (name : String) (s : Symbols) : Symbols → Prop where
  | refl : Continues name s s
  | line {t : Symbols} (h : Continues name s t) (rates : RateSource) (line : String)
      (hkept : ¬ Rebinds rates t line name) : Continues name s (process rates t line).symbols

variable {rates : RateSource} {s t : Symbols} {line name : String} {v : Float}

/-! ## One line -/

/-- The names of a binding are stored under, so they may be. -/
theorem storable_of_assigned (h : (process rates s line).result = .ok (.assigned name v)) :
    Storable name := by
  have heffect := effect_process rates s line
  rw [h] at heffect
  generalize (process rates s line).symbols = after at heffect
  cases heffect with
  | answered _ hquery => cases hquery
  | assigned _ htarget => exact storable_of_targetName htarget

/-- A line that does not rebind the name leaves its entry alone. -/
theorem find?_process_of_not_rebinds (h : ¬ Rebinds rates s line name) :
    (process rates s line).symbols.find? name = s.find? name := by
  have heffect := effect_process rates s line
  cases hresult : (process rates s line).result with
  | error e => rw [heffect.after_eq_of_error hresult]
  | ok reply =>
      by_cases hquery : isQuery reply = true
      · rw [hresult] at heffect
        rw [heffect.after_eq_of_isQuery hquery]
      · cases reply with
        | value v =>
            rw [hresult] at heffect
            rw [heffect.after_eq_of_value, Symbols.find?_setLastAnswer]
        | assigned first v =>
            obtain ⟨names, r, hcarried⟩ := isCarriedOut_of_assigned hresult
            refine hcarried.kept name ?_
            intro hmem
            refine h (.inl ⟨first, v, hresult, ?_⟩)
            rwa [hcarried.form, List.dropLast_concat]
        | defined other =>
            rw [hresult] at heffect
            obtain ⟨source, hdefinition⟩ := heffect.isDefinition
            refine hdefinition.kept name ?_
            rintro rfl
            exact h (.inr hresult)
        | _ => exact absurd rfl hquery

/-! ## Runs -/

theorem Continues.find?_eq (h : Continues name s t) : t.find? name = s.find? name := by
  induction h with
  | refl => rfl
  | line _ rates line hkept ih => rw [find?_process_of_not_rebinds hkept, ih]

omit [Elementary] in
/-- The first target of an assignment to a name is that name. -/
theorem head?_pieces_of_identifier (hname : Token.IsIdentifier name) (r : String) :
    (Request.pieces (trimLine (name ++ " = " ++ r))).head? = some name := by
  have hline : (name ++ " = " ++ r).toList =
      (name.toList ++ [' ']) ++ '=' :: (' ' :: r.toList) := by
    simp
  have hequals : '=' ∉ name.toList ++ [' '] := by
    simpa using hname.equals_not_mem
  have htrim : String.ofList (Text.trim (name.toList ++ [' '])) = name := by
    have hblank : ∀ c ∈ [' '], Text.isBlank c = true := by
      intro c hc
      obtain rfl := List.mem_singleton.mp hc
      decide
    rw [Text.trim_append_back hblank]
    exact Request.trimLine_of_lineWords (Request.lineWords_of_identifier hname)
  rw [trimLine, Request.pieces_ofList_trim, String.ofList_toList, Request.pieces, hline,
    List.splitOn_append_cons_self_of_not_mem hequals, List.map_cons, List.head?_cons, htrim]

/-- A name that a line has bound replies with its value, whatever lines have followed
that do not rebind it.  The value becomes the last answer, and nothing that is stored changes. -/
theorem process_of_bound {r first : String} (hname : Token.IsIdentifier name)
    (h : (process rates s (name ++ " = " ++ r)).result = .ok (.assigned first v))
    (hrun : Continues name (process rates s (name ++ " = " ++ r)).symbols t)
    (rates' : RateSource) :
    process rates' t name = ⟨.ok (.value (.number v)), { t with lastAnswer := v }, []⟩ := by
  obtain ⟨names, last, hcarried⟩ := isCarriedOut_of_assigned h
  obtain rfl : first = name := by
    have hhead := head?_pieces_of_identifier hname r
    rw [hcarried.form, List.cons_append, List.head?_cons] at hhead
    exact Option.some.inj hhead
  have hvalue : t.valueOf? first = some v := by
    rw [Symbols.valueOf?, hrun.find?_eq, hcarried.bound first List.mem_cons_self]
  exact process_of_identifier (storable_of_assigned h) hname hvalue
    (Request.lineWords_of_identifier hname)

omit [Elementary] in
/-- After `a = 3` and `b = a` the name `a` replies with three. -/
theorem process_bound_twice :
    ∃ t, @Continues .machine "a" (@process .machine (fun _ _ => none) {} "a = 3").symbols t ∧
      t.valueOf? "b" = some 3 ∧
        @process .machine (fun _ _ => none) t "a" =
          ⟨.ok (.value (.number 3)), ⟨t.entries, 3⟩, []⟩ := by
  let elementary := Elementary.machine
  let rates : RateSource := fun _ _ => none
  have ha : Token.IsIdentifier "a" := by
    refine ⟨⟨'a', rfl, rfl⟩, fun c hc => ?_⟩
    obtain rfl : c = 'a' := by simpa using hc
    rfl
  have hsides : Request.assignment? (trimLine "a = 3") = some ("a", "3") := by decide
  have hfirst := process_bind_three rates {} hsides rfl
  have hbound : (process rates {} "a = 3").result = .ok (.assigned "a" 3) := by rw [hfirst]
  have hsides' : Request.assignment? (trimLine "b = a") = some ("b", "a") := by decide
  have hvalue : (process rates {} "a = 3").symbols.valueOf? "a" = some 3 := by
    rw [hfirst]
    rfl
  have hfunction : definesFunction ⟨"b", false⟩ "a" = false := by
    rw [definesFunction, ha.parse_eq]
    rfl
  have htarget : targetName "b" = .ok ⟨"b", false⟩ := rfl
  have hsecond : (process rates (process rates {} "a = 3").symbols "b = a").result =
      .ok (.assigned "b" 3) := by
    rw [process_of_assignment? hsides', htarget]
    dsimp only
    rw [hfunction, if_neg Bool.false_ne_true, process_of_identifier (storable_of_assigned hbound)
      ha hvalue (Request.lineWords_of_identifier ha)]
    rfl
  have hkept : ¬ Rebinds rates (process rates {} "a = 3").symbols "b = a" "a" := by
    rintro (⟨_, _, _, hmem⟩ | hdefined)
    · exact absurd hmem (by decide)
    · rw [hsecond] at hdefined
      cases hdefined
  have hrun := Continues.refl.line rates "b = a" hkept
  refine ⟨_, hrun, ?_, process_of_bound (s := {}) (r := "3") ha hbound hrun rates⟩
  obtain ⟨names, r, hcarried⟩ := isCarriedOut_of_assigned hsecond
  rw [Symbols.valueOf?, hcarried.bound "b" List.mem_cons_self]

end Session
end Calculator
