import Calculator.Proofs.Rates.Latest
import Calculator.Proofs.Session.Effect
import Calculator.Rates.Service

/-!
# Only usable rates

A rate comes from a response that is no failure, whose whole body lists it under the code, and
it is finite and positive.  From every other response there is no rate, and a currency line is
answered accordingly.  Neither answer touches the symbols.
-/

namespace Calculator

/-! ## Codes -/

theorem toUpper_of_toLower_of_ascii : ∀ c : Char, c.toNat < 128 →
    c.toLower.toUpper = c.toUpper ∧ c.toUpper.toUpper = c.toUpper :=
  Text.forall_ascii (by decide +kernel)

theorem toUpper_of_toLower (c : Char) :
    c.toLower.toUpper = c.toUpper ∧ c.toUpper.toUpper = c.toUpper := by
  by_cases hascii : c.toNat < 128
  · exact toUpper_of_toLower_of_ascii c hascii
  · have hbeyond : 128 ≤ c.toNat := by omega
    rw [Text.toLower_of_not_ascii hbeyond, Text.toUpper_of_not_ascii hbeyond,
      Text.toUpper_of_not_ascii hbeyond]
    exact ⟨rfl, rfl⟩

/-- A code in capitals depends on the code up to case only. -/
theorem map_toUpper_of_map_toLower (code : String) :
    (code.map Char.toLower).map Char.toUpper = code.map Char.toUpper := by
  rw [String.map_map]
  congr 1
  exact funext fun c => (toUpper_of_toLower c).1

theorem map_toUpper_map_toUpper (code : String) :
    (code.map Char.toUpper).map Char.toUpper = code.map Char.toUpper := by
  rw [String.map_map]
  congr 1
  exact funext fun c => (toUpper_of_toLower c).2

namespace RateService

theorem body?_eq_some_iff {response : Response} {body : ByteArray} :
    body? response = some body ↔ ∃ status, response = .answered status body ∧ status < 400 := by
  constructor
  · intro h
    cases response with
    | unreachable => cases h
    | answered status found =>
        rw [body?] at h
        split at h
        · next hstatus =>
            cases h
            exact ⟨status, rfl, hstatus⟩
        · cases h
  · rintro ⟨status, rfl, hstatus⟩
    exact if_pos hstatus

theorem isUsable_iff {rate : Float} : isUsable rate = true ↔ rate.isFinite = true ∧ 0 < rate := by
  rw [isUsable, Bool.and_eq_true, decide_eq_true_eq]

variable [Json.Doubles]

/-- The response is no failure, its whole body lists the rate under the code, as the last of the
entries with it, and the rate can be used. -/
def Gives (response : Response) (code : String) (rate : Float) : Prop :=
  ∃ (status : Nat) (text : String) (json : Json) (entries : List (String × Float)),
    response = .answered status text.toUTF8 ∧ status < 400 ∧ Json.Spells text.toList json ∧
      LatestRates.Lists json entries ∧ LatestRates.HasLast entries code rate ∧
        rate.isFinite = true ∧ 0 < rate

variable [Json.Reader]

/-- A rate is found exactly when the response gives it. -/
theorem rates_eq_some_iff (hstrict : Json.Reader.IsStrict) {fetch : String → Response}
    {address source target : String} {rate : Float} :
    rates fetch address source target = some rate ↔
      Gives (fetch (addressOf address (source.map Char.toUpper))) (target.map Char.toUpper)
        rate := by
  unfold rates
  dsimp only
  constructor
  · intro h
    obtain ⟨body, hbody, hrest⟩ := Option.bind_eq_some_iff.mp h
    obtain ⟨latest, hlatest, hrate⟩ := Option.bind_eq_some_iff.mp hrest
    obtain ⟨hfound, husable⟩ := Option.filter_eq_some_iff.mp hrate
    obtain ⟨status, hresponse, hstatus⟩ := body?_eq_some_iff.mp hbody
    obtain ⟨text, json, rfl, hjson, hlists⟩ := (LatestRates.read?_eq_some_iff hstrict).mp hlatest
    exact ⟨status, text, json, latest.entries, hresponse, hstatus, hjson, hlists,
      LatestRates.find?_eq_some_iff.mp hfound, isUsable_iff.mp husable⟩
  · rintro ⟨status, text, json, entries, hresponse, hstatus, hjson, hlists, hlast, husable⟩
    have hbody := body?_eq_some_iff.mpr ⟨status, hresponse, hstatus⟩
    have hlatest : LatestRates.read? text.toUTF8 = some ⟨entries⟩ :=
      (LatestRates.read?_eq_some_iff hstrict).mpr ⟨text, json, rfl, hjson, hlists⟩
    have hfound : LatestRates.find? ⟨entries⟩ (target.map Char.toUpper) = some rate :=
      LatestRates.find?_eq_some_iff.mpr hlast
    have hrate := Option.filter_eq_some_iff.mpr ⟨hfound, isUsable_iff.mpr husable⟩
    exact Option.bind_eq_some_iff.mpr ⟨_, hbody, Option.bind_eq_some_iff.mpr ⟨_, hlatest, hrate⟩⟩

/-- The case of the codes does not matter. -/
theorem rates_of_map_toLower (fetch : String → Response) (address : String)
    {source source' target target' : String}
    (hsource : source.map Char.toLower = source'.map Char.toLower)
    (htarget : target.map Char.toLower = target'.map Char.toLower) :
    rates fetch address source target = rates fetch address source' target' := by
  unfold rates
  rw [← map_toUpper_of_map_toLower source, ← map_toUpper_of_map_toLower target, hsource, htarget,
    map_toUpper_of_map_toLower, map_toUpper_of_map_toLower]

end RateService

namespace Session

open RateService (Gives addressOf)

variable [Elementary]

/-- A currency line is answered from the rate for its codes in capitals. -/
theorem process_of_currency {rates : RateSource} {s : Symbols} {line : String} {amount : Float}
    {c : Conversion} (hclass : Request.classify (trimLine line) s = .currency amount c) :
    process rates s line =
      unchanged s
        (match rates (c.source.map Char.toUpper) (c.target.map Char.toUpper) with
        | some rate => .ok (.currency amount (c.source.map Char.toUpper)
            (c.target.map Char.toUpper) (amount * rate))
        | none => .error (.conversionUnavailable (c.source.map Char.toUpper)
            (c.target.map Char.toUpper))) := by
  rw [process_eq, hclass]
  rfl

/-- Only a usable rate gets through, whatever strict reader is used, such as that of this
library.  The service has a rate exactly when its response gives it, and the same one whatever
the case of the codes.  So a currency line replies with the amount times such a rate, or is told
that there is none; the symbols stay as they are either way. -/
theorem only_usable_rates [Json.Doubles] :
    @Json.Reader.IsStrict Json.strictReader ∧
    ∀ [Json.Reader], Json.Reader.IsStrict →
      (∀ (fetch : String → Response) (address source target : String) (rate : Float),
        RateService.rates fetch address source target = some rate ↔
          Gives (fetch (addressOf address (source.map Char.toUpper))) (target.map Char.toUpper)
            rate) ∧
      (∀ (fetch : String → Response) (address source target source' target' : String),
        source.map Char.toLower = source'.map Char.toLower →
        target.map Char.toLower = target'.map Char.toLower →
          RateService.rates fetch address source target =
            RateService.rates fetch address source' target') ∧
      ∀ (fetch : String → Response) (address : String) (s : Symbols) (line : String)
        (amount : Float) (c : Conversion),
        Request.classify (trimLine line) s = .currency amount c →
        let source := c.source.map Char.toUpper
        let target := c.target.map Char.toUpper
        (∀ rate, Gives (fetch (addressOf address source)) target rate →
          process (RateService.rates fetch address) s line =
            ⟨.ok (.currency amount source target (amount * rate)), s, []⟩) ∧
        ((¬ ∃ rate, Gives (fetch (addressOf address source)) target rate) →
          process (RateService.rates fetch address) s line =
            ⟨.error (.conversionUnavailable source target), s, []⟩) := by
  refine ⟨Json.isStrict_strictReader, ?_⟩
  intro reader hstrict
  refine ⟨fun _ _ _ _ _ => RateService.rates_eq_some_iff hstrict,
    fun fetch address _ _ _ _ => RateService.rates_of_map_toLower fetch address, ?_⟩
  intro fetch address s line amount c hclass source target
  have hrates : ∀ rate, RateService.rates fetch address source target = some rate ↔
      Gives (fetch (addressOf address source)) target rate := by
    intro rate
    rw [RateService.rates_eq_some_iff hstrict, map_toUpper_map_toUpper, map_toUpper_map_toUpper]
  rw [process_of_currency hclass]
  constructor
  · intro rate hgives
    rw [(hrates rate).mpr hgives]
    rfl
  · intro hnone
    have hnorate : RateService.rates fetch address source target = none := by
      rw [Option.eq_none_iff_forall_ne_some]
      exact fun rate hrate => hnone ⟨rate, (hrates rate).mp hrate⟩
    rw [hnorate]
    rfl

omit [Elementary] in
/-- The later of two entries for a currency counts, and the codes may be in lower case. -/
theorem euros_for_dollars :
    let _ := Elementary.machine
    let body := "\x7b\"rates\": \x7b\"EUR\": 2, \"EUR\": 5e-1\x7d\x7d"
    let fetch (_ : String) := Response.answered 200 body.toUTF8
    Request.classify (trimLine "3 usd to eur") {} = .currency 3 ⟨.literal "3", "usd", "eur"⟩ ∧
      Gives (fetch "https://rates/USD") "EUR" (Decimal.toFloat ⟨5, -1⟩) ∧
      RateService.rates fetch "https://rates/" "usd" "Eur" = some (Decimal.toFloat ⟨5, -1⟩) ∧
      process (RateService.rates fetch "https://rates/") {} "3 usd to eur" =
        ⟨.ok (.currency 3 "USD" "EUR" (3 * Decimal.toFloat ⟨5, -1⟩)), {}, []⟩ := by
  intro _ body fetch
  have hclass : Request.classify (trimLine "3 usd to eur") {} =
      .currency 3 ⟨.literal "3", "usd", "eur"⟩ := by
    decide +kernel
  have hread : ((Json.read? body).bind LatestRates.ofJson?).map LatestRates.entries =
      some [("EUR", Decimal.toFloat ⟨2, 0⟩), ("EUR", Decimal.toFloat ⟨5, -1⟩)] := by
    decide +kernel
  have hhalf : (Decimal.toFloat ⟨5, -1⟩).isFinite = true ∧ 0 < Decimal.toFloat ⟨5, -1⟩ := by
    decide +kernel
  obtain ⟨latest, hlatest, hentries⟩ := Option.map_eq_some_iff.mp hread
  obtain ⟨json, hjson, hlists⟩ := Option.bind_eq_some_iff.mp hlatest
  have hgives : Gives (Response.answered 200 body.toUTF8) "EUR" (Decimal.toFloat ⟨5, -1⟩) :=
    ⟨200, body, json, latest.entries, rfl, by decide, Json.read?_eq_some_iff.mp hjson,
      LatestRates.ofJson?_eq_some_iff.mp hlists,
      ⟨[("EUR", Decimal.toFloat ⟨2, 0⟩)], [], hentries, by simp⟩, hhalf⟩
  obtain ⟨hstrict, husable⟩ := only_usable_rates
  obtain ⟨hrates, hcase, hline⟩ := @husable Json.strictReader hstrict
  have hdollars : "usd".map Char.toUpper = "USD" := by decide +kernel
  have heuros : "eur".map Char.toUpper = "EUR" := by decide +kernel
  refine ⟨hclass, hgives, ?_, ?_⟩
  · rw [hcase fetch "https://rates/" "usd" "Eur" "usd" "eur" rfl (by decide +kernel), hrates,
      heuros]
    exact hgives
  · have hreply := (hline fetch "https://rates/" {} _ _ _ hclass).1 (Decimal.toFloat ⟨5, -1⟩)
    dsimp only at hreply
    rw [hdollars, heuros] at hreply
    exact hreply hgives

end Session
end Calculator
