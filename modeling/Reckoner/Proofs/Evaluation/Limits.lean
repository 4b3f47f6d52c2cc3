import Reckoner.Calculation

/-!
# Wider limits

Two limits are set from outside: the digits of a number in text and the size of a power. Under
wider ones every outcome stays, unless it was a limit that made it fail.
-/

namespace Reckoner

/-- No limit is the widest. -/
instance : LE DigitLimit where
  le
    | _, .unlimited => True
    | .unlimited, .atMost _ => False
    | .atMost fewer, .atMost more => fewer ≤ more

theorem DigitLimit.admits_of_le {limit wider : DigitLimit} (within : limit ≤ wider) {count : Nat}
    (admits : limit.admits count = true) : wider.admits count = true := by
  cases wider with
  | unlimited => rfl
  | atMost more =>
    cases limit with
    | unlimited => cases within
    | atMost fewer =>
      have few : count ≤ fewer := by simpa [DigitLimit.admits] using admits
      have le : fewer ≤ more := within
      simpa [DigitLimit.admits] using Nat.le_trans few le

/-- The failures of a limit; every other one has its cause in the line and the bindings. -/
def Failure.OfLimit : Failure → Prop
  | numberTooLong | resultTooLarge | resultTooLongToPrint => True
  | _ => False

/-- The second outcome is the first one, unless that is the failure of a limit. -/
inductive Widens : Except Failure α → Except Failure α → Prop
  | same : Widens outcome outcome
  | cut {failure : Failure} (limited : failure.OfLimit) : Widens (.error failure) outcome

namespace Widens

theorem bind {f g : α → Except Failure β} (first : Widens tight wide)
    (next : ∀ a, Widens (f a) (g a)) : Widens (tight.bind f) (wide.bind g) := by
  cases first with
  | cut limited => exact .cut limited
  | same =>
    cases tight with
    | error failure => exact .same
    | ok a => exact next a

theorem map {f : α → β} (first : Widens tight wide) : Widens (tight.map f) (wide.map f) := by
  cases first with
  | cut limited => exact .cut limited
  | same => exact .same

end Widens

theorem Numeral.read?_of_le {limit wider : DigitLimit} (within : limit ≤ wider) {text : Text}
    (reads : read? limit text = some n) : read? wider text = some n := by
  simp only [read?,Option.bind_eq_bind,Option.bind_eq_some_iff] at reads ⊢
  obtain ⟨digits,run,value⟩ := reads
  refine ⟨digits,run,?_⟩
  split at value
  next admits => rwa [if_pos (DigitLimit.admits_of_le within admits)]
  next => cases value

theorem Numeral.print?_of_le {limit wider : DigitLimit} (within : limit ≤ wider) {n : Int}
    (prints : print? limit n = some text) : print? wider n = some text := by
  rw [print?] at prints ⊢
  split at prints
  next admits => rwa [if_pos (DigitLimit.admits_of_le within admits)]
  next => cases prints

/-- An estimate is compared with the bound only, so a larger bound lets more powers pass. -/
theorem PowerSize.fits_of_le {bound larger : Int} (within : bound ≤ larger) {base exponent : Nat}
    (fits : PowerSize.fits bound base exponent = true) :
    PowerSize.fits larger base exponent = true := by
  have le : (bound : Dyadic) ≤ larger := by
    rw [← Dyadic.toRat_le_toRat_iff,Dyadic.toRat_intCast,Dyadic.toRat_intCast]
    exact Rat.intCast_le_intCast.mpr within
  rw [PowerSize.fits,decide_eq_true_eq] at fits ⊢
  exact Std.lt_of_lt_of_le fits le

theorem power_widens {bound larger : Int} (within : bound ≤ larger) (base exponent : Int) :
    Widens (power bound base exponent) (power larger base exponent) := by
  unfold power
  split
  · exact .same
  · split
    · exact .same
    · split
      next => exact .cut trivial
      next passes =>
        have largerPasses : ¬ (1 < base.natAbs &&
            !PowerSize.fits larger base.natAbs exponent.toNat) = true := by
          simp only [Bool.and_eq_true,decide_eq_true_eq,Bool.not_eq_true',not_and,
            Bool.not_eq_false] at passes ⊢
          exact fun grows => PowerSize.fits_of_le within (passes grows)
        rw [if_neg largerPasses]
        exact .same

theorem applyText_widens {bound larger : Int} (within : bound ≤ larger) (text : Text) (a b : Int) :
    Widens (applyText bound text a b) (applyText larger text a b) := by
  rw [applyText,applyText]
  cases Operator.ofText? text with
  | none => exact .same
  | some op =>
    cases op with
    | add | sub | mul | div => exact .same
    | pow => exact power_widens within a b

/-- The same bindings under limits that are at least as wide. -/
structure Context.Within (tight wide : Context) : Prop where
  bindings : tight.bindings = wide.bindings
  digitLimit : tight.digitLimit ≤ wide.digitLimit
  resultBits : tight.resultBits ≤ wide.resultBits

namespace Context.Within

variable {tight wide : Context}

theorem magnitude (within : tight.Within wide) (token : Token) :
    Widens (tight.magnitude token) (wide.magnitude token) := by
  rw [Context.magnitude,Context.magnitude,within.bindings]
  split
  · cases reads : Numeral.read? tight.digitLimit token.bare with
    | none => exact .cut trivial
    | some n =>
      rw [Numeral.read?_of_le within.digitLimit reads]
      exact .same
  · exact .same

theorem step (within : tight.Within wide) (stack : List Int) (token : Token) :
    Widens (tight.step stack token) (wide.step stack token) := by
  rw [Context.step,Context.step]
  split
  · exact (within.magnitude token).map.map
  · rw [operate.eq_def,operate.eq_def]
    split
    · exact (applyText_widens within.resultBits _ _ _).map
    · exact .same

theorem run (within : tight.Within wide) (stack : List Int) (tokens : List Token) :
    Widens (tight.run stack tokens) (wide.run stack tokens) := by
  induction tokens generalizing stack with
  | nil => exact .same
  | cons token rest ih =>
    rw [Context.run,Context.run,List.foldlM_cons,List.foldlM_cons]
    exact (within.step stack token).bind ih

theorem evaluate (within : tight.Within wide) (tokens : List Token) :
    Widens (tight.evaluate tokens) (wide.evaluate tokens) :=
  (within.run [] tokens).bind fun _ => .same

theorem report (within : tight.Within wide) (text : Text) :
    wide.report text = tight.report text ∨
      ∃ failure, failure.OfLimit ∧ (tight.report text).outcome = .error failure := by
  rw [Context.report,Context.report]
  cases Stages.ofText text with
  | error => exact .inl rfl
  | ok stages =>
    have widens := within.evaluate stages.ordered
    dsimp only
    generalize tight.evaluate stages.ordered = outcome at widens
    cases widens with
    | same => exact .inl rfl
    | cut limited => exact .inr ⟨_,limited,rfl⟩

end Context.Within
end Reckoner
