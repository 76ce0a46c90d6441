import CilProbe.Proofs.Conversion.Decimal
import CilProbe.Proofs.Conversion.TimeSpan

/-!
# Decimals and time spans that the runtime does not have

An integer that is not in the range of its type is refused.  For decimals and time spans there is no such test: text is
converted to whatever it writes, as far as the bounds of the readers allow (`Synthesis.convert_decimals_timeSpans`),
and these are wider than those of the runtime (`Synthesis.convert_beyond`).
-/

namespace CilProbe

/-- The runtime has decimals of this size. -/
def Decimal.Fits : Decimal → Prop
  | finite _ coefficient exponent => coefficient * 10 ^ exponent.toNat ≤ (2 ^ 96 - 1) * 10 ^ (-exponent).toNat
  | infinite _ => False
  | nan _ _ _ => False

instance : (d : Decimal) → Decidable d.Fits
  | .finite _ _ _ => inferInstanceAs (Decidable (_ ≤ _))
  | .infinite _ => inferInstanceAs (Decidable False)
  | .nan _ _ _ => inferInstanceAs (Decidable False)

/-- The runtime has time spans of this size. -/
def TimeSpan.Fits (t : TimeSpan) : Prop := -2 ^ 63 ≤ t.ticks ∧ t.ticks < 2 ^ 63

instance (t : TimeSpan) : Decidable t.Fits := inferInstanceAs (Decidable (_ ∧ _))

namespace Synthesis

variable {τ μ σ : Type} {h : Host τ μ σ} {p : Parameter τ} {s s' : Session σ}

theorem run_convert_decimal (htype : p.typeName = "System.Decimal") (hnamed : ReadByName h p s s') (text : String) :
    (convert h p text).run s = (told p text (Conversion.decimal text), s') := by
  have hread : Conversion.reader? p.typeName = some Conversion.decimal := by
    rw [htype]
    rfl
  exact run_convert_of_reader hread hnamed text

/-- What text for a decimal is converted to: the decimals that can be written, each of them from its own text, which is
also what the runtime gets. -/
structure DecimalsRead (h : Host τ μ σ) (p : Parameter τ) (s s' : Session σ) : Prop where
  total : ∀ text, (∃ d : Decimal, d.Writable ∧ (convert h p text).run s = (.ok (.decimal d), s')) ∨
    (convert h p text).run s =
      (.error (.fault (.conversion ⟨p.name, p.typeName, some text, .invalidDecimal text⟩)), s')
  every : ∀ d : Decimal, d.Writable → (convert h p d.toText).run s = (.ok (.decimal d), s')
  handed : ∀ (d : Decimal) (r : Reflection) (type : ReflectedType),
    r.marshal type (.decimal d) = .call "Decimal.Parse" [.text d.toText, Reflection.invariant]

/-- What text for a time span is converted to: time spans of a bounded number of days, and those of them that have
whole seconds each from their own text; the runtime gets their ticks. -/
structure TimeSpansRead (h : Host τ μ σ) (p : Parameter τ) (s s' : Session σ) : Prop where
  total : ∀ text, (∃ t : TimeSpan, t.Bounded ∧ (convert h p text).run s = (.ok (.timeSpan t), s')) ∨
    (convert h p text).run s =
      (.error (.fault (.conversion ⟨p.name, p.typeName, some text, .malformed⟩)), s')
  every : ∀ seconds : Int, (TimeSpan.ofSeconds seconds).Bounded →
    (convert h p (TimeSpan.written seconds)).run s = (.ok (.timeSpan (TimeSpan.ofSeconds seconds)), s')
  handed : ∀ (t : TimeSpan) (r : Reflection) (type : ReflectedType),
    r.marshal type (.timeSpan t) = .call "TimeSpan.FromTicks" [.int t.ticks]

private theorem decimalsRead (htype : p.typeName = "System.Decimal") (hnamed : ReadByName h p s s') :
    DecimalsRead h p s s' := by
  have hrun := run_convert_decimal htype hnamed
  constructor
  case total =>
    intro text
    rw [hrun, Conversion.decimal]
    cases hread : Decimal.ofText? text with
    | some d => exact .inl ⟨d, Decimal.writable_of_ofText? hread, rfl⟩
    | none => exact .inr rfl
  case every =>
    intro d hd
    rw [hrun, Conversion.decimal, Decimal.ofText?_toText hd]
    rfl
  case handed =>
    intro d r type
    rfl

private theorem timeSpansRead (htype : p.typeName = "System.TimeSpan") (hnamed : ReadByName h p s s') :
    TimeSpansRead h p s s' := by
  have hrun := run_convert_timeSpan htype hnamed
  constructor
  case total =>
    intro text
    rw [hrun, Conversion.timeSpan_eq]
    cases hread : TimeSpan.ofText? text with
    | some t => exact .inl ⟨t, TimeSpan.bounded_of_ofText? hread, rfl⟩
    | none => exact .inr rfl
  case every =>
    intro seconds hbounded
    rw [hrun, Conversion.timeSpan_written hbounded]
    rfl
  case handed =>
    intro t r type
    rfl

/-- Decimals and time spans are read as far as they can be written, and nothing else comes of a text for them than such
a value or an error that names the parameter and its type. -/
theorem convert_decimals_timeSpans (h : Host τ μ σ) (s s' : Session σ) :
    (∀ p, p.typeName = "System.Decimal" → ReadByName h p s s' → DecimalsRead h p s s') ∧
      ∀ p, p.typeName = "System.TimeSpan" → ReadByName h p s s' → TimeSpansRead h p s s' :=
  ⟨fun _ htype hnamed => decimalsRead htype hnamed, fun _ htype hnamed => timeSpansRead htype hnamed⟩

/-! ### Values beyond those of the runtime -/

private def valueHost (typeName : String) : Host Unit Unit Unit :=
  (TypeGraph.single typeName .value []).host (.fault default)

private theorem readByName_valueHost (typeName : String) (p : Parameter Unit) (s : Session Unit) :
    ReadByName (valueHost typeName) p s s :=
  ⟨.value, rfl, nofun, nofun⟩

theorem convert_decimals_timeSpans_largest :
    (convert (valueHost "System.Decimal") (singleParameter "price" "System.Decimal") "79228162514264337593543950335").run
      (Session.start ()) = (.ok (.decimal (.finite false (2 ^ 96 - 1) 0)), Session.start ()) ∧
    (convert (valueHost "System.TimeSpan") (singleParameter "delay" "System.TimeSpan") (TimeSpan.written (-1))).run
      (Session.start ()) = (.ok (.timeSpan (TimeSpan.ofSeconds (-1))), Session.start ()) := by
  have hread (typeName : String) (p : Parameter Unit) := readByName_valueHost typeName p (Session.start ())
  constructor
  · have htext : (Decimal.finite false (2 ^ 96 - 1) 0).toText = "79228162514264337593543950335" := by decide
    rw [← htext]
    exact ((convert_decimals_timeSpans _ _ _).1 _ rfl (hread _ _)).every _ (by decide)
  · exact ((convert_decimals_timeSpans _ _ _).2 _ rfl (hread _ _)).every (-1) (by decide)

private def beyond : List (String × Decimal) :=
  [("1E+29", .finite false 1 29), ("-Infinity", .infinite true), ("NaN", .nan false false 0)]

/-- Numbers that are too large, the words for what is no number, and too many days are all converted. -/
theorem convert_beyond :
    (∀ m ∈ beyond, ¬m.2.Fits ∧
      (convert (valueHost "System.Decimal") (singleParameter "price" "System.Decimal") m.1).run (Session.start ()) =
        (.ok (.decimal m.2), Session.start ())) ∧
    ¬(TimeSpan.ofSeconds (999999999 * 86400)).Fits ∧
    (convert (valueHost "System.TimeSpan") (singleParameter "delay" "System.TimeSpan") "999999999.00:00:00").run
      (Session.start ()) = (.ok (.timeSpan (TimeSpan.ofSeconds (999999999 * 86400))), Session.start ()) := by
  have hread (typeName : String) (p : Parameter Unit) := readByName_valueHost typeName p (Session.start ())
  have hbeyond : ∀ m ∈ beyond, m.1 = m.2.toText ∧ m.2.Writable ∧ ¬m.2.Fits := by decide
  refine ⟨?_, by decide, ?_⟩
  · intro m hm
    obtain ⟨htext, hwritable, hfits⟩ := hbeyond m hm
    rw [htext]
    exact ⟨hfits, (decimalsRead rfl (hread _ _)).every _ hwritable⟩
  · have htext : TimeSpan.written (999999999 * 86400) = "999999999.00:00:00" := by decide
    rw [← htext]
    exact (timeSpansRead rfl (hread _ _)).every _ (by decide)

end Synthesis

end CilProbe
