import EthosApp.Store.Codec
import EthosApp.Store.Confirms

/-!
# The two effects of a check

A confirmed check writes the register and the machine by two independent writes, each
of which swallows its error. Where both dates can be parsed, each effect depends on its
own write only.
-/

namespace EthosApp

open Dart Firestore DocStore Runs Confirms

namespace ControlCheck

/-- The entry of a check has been put in the register, and nothing else there changed. -/
def Registered (zone : Zone) (r : RegistroControllo) (b b' : Backend) : Prop :=
  ∃ q, docPath (registroId zone r) = some q ∧
    b'.registroControlli = setDoc q r.toJson b.registroControlli

/-- The dates of a check have been set in the document of its machine, and no other
machine changed. -/
def DatesSet (widget : Controllo) (u v : DateTime) (b b' : Backend) : Prop :=
  ∃ p d d', docPath widget.cod = some p ∧ b.controlli.lookup p = some d ∧
    d' "dataUltimo" = some (.str u.isoDay) ∧ d' "dataProssimo" = some (.str v.isoDay) ∧
    b'.controlli = b.controlli.insert p d'

/-- The write to the register succeeds: it addresses a document and is accepted. -/
def RegistroSucceeds (zone : Zone) (r : RegistroControllo) (oRegistro : Outcome) : Prop :=
  oRegistro = .success ∧ (docPath (registroId zone r)).isSome

/-- The update of the machine succeeds: the document exists and the write is accepted. -/
def UpdateSucceeds (widget : Controllo) (b : Backend) (oUpdate : Outcome) : Prop :=
  oUpdate = .success ∧ ∃ p, docPath widget.cod = some p ∧ (b.controlli.lookup p).isSome

section

variable (zone : Zone) (oRegistro oUpdate : Outcome) (widget : Controllo) (f : ControlCheck)
  (b : Backend)

/-- The handler throws before any write if the date of the check cannot be parsed. -/
theorem conferma_of_ultimo_none (hultimo : f.dataControllo.parsed = none) :
    f.conferma zone oRegistro oUpdate widget b = (.exception, b) := by
  unfold conferma
  rw [hultimo]
  rfl

variable {u v : DateTime}

/-- The effect of a check on the register, where its date is parsed. -/
theorem registro_effect (hultimo : f.dataControllo.parsed = some u) :
    (RegistroSucceeds zone (registro widget f u) oRegistro →
      Registered zone (registro widget f u) b
        (f.conferma zone oRegistro oUpdate widget b).2) ∧
    (¬ RegistroSucceeds zone (registro widget f u) oRegistro →
      (f.conferma zone oRegistro oUpdate widget b).2.registroControlli = b.registroControlli) := by
  have hregistro := conferma_registro zone oRegistro oUpdate widget f b
  constructor
  · rintro ⟨rfl, hpath⟩
    obtain ⟨q, hq⟩ := Option.isSome_iff_exists.mp hpath
    have hregisters : f.registers zone .success widget = some (q, registro widget f u) :=
      registers_eq_some.mpr ⟨hultimo, rfl, rfl, hq⟩
    rw [hregisters] at hregistro
    exact ⟨q, hq, hregistro⟩
  · intro hfails
    have hregisters : f.registers zone oRegistro widget = none := by
      rw [Option.eq_none_iff_forall_ne_some]
      rintro ⟨q, r⟩ hregisters
      obtain ⟨hr, hr', ho, hq⟩ := registers_eq_some.mp hregisters
      rw [hultimo] at hr
      cases hr
      rw [hr'] at hq
      exact hfails ⟨ho, Option.isSome_of_mem hq⟩
    rw [hregisters] at hregistro
    exact hregistro

/-- The effect of a check on the machines, where both dates are parsed. -/
theorem controlli_effect (hultimo : f.dataControllo.parsed = some u)
    (hprossimo : f.dataProssimo.parsed = some v) :
    (UpdateSucceeds widget b oUpdate →
      DatesSet widget u v b (f.conferma zone oRegistro oUpdate widget b).2) ∧
    (¬ UpdateSucceeds widget b oUpdate →
      (f.conferma zone oRegistro oUpdate widget b).2.controlli = b.controlli) := by
  have hcontrolli := conferma_controlli zone oRegistro oUpdate widget f b
  constructor
  · rintro ⟨rfl, p, hp, hdoc⟩
    obtain ⟨d, hd⟩ := Option.isSome_iff_exists.mp hdoc
    have hwrites : f.writes .success widget = some (p, controllo widget u v) :=
      writes_eq_some.mpr ⟨hultimo, hprossimo, rfl, rfl, hp⟩
    rw [hwrites] at hcontrolli
    obtain ⟨_, _, _, _, hu, hv, _⟩ := Controllo.toJson_lookup (controllo widget u v)
    exact ⟨p, d, overwrite d (controllo widget u v).toJson, hp, hd, overwrite_of_lookup hu,
      overwrite_of_lookup hv, hcontrolli.trans (updateDoc_of_lookup hd)⟩
  · intro hfails
    cases hwrites : f.writes oUpdate widget with
    | none =>
      rw [hwrites] at hcontrolli
      exact hcontrolli
    | some w =>
      obtain ⟨p, c⟩ := w
      obtain ⟨_, _, _, ho, hp⟩ := writes_eq_some.mp hwrites
      rw [hwrites] at hcontrolli
      refine hcontrolli.trans (updateDoc_of_none ?_)
      rw [← Option.not_isSome_iff_eq_none]
      intro hdoc
      exact hfails ⟨ho, p, hp, hdoc⟩

end

/-- **The two effects of a check.** If the date of the check cannot be parsed, nothing
changes. If both dates are parsed, the register gets the entry exactly if its write
succeeds and the machine gets the dates exactly if its update succeeds, so that both
effects or neither take place whenever the two writes have the same outcome. -/
theorem conferma_effects (zone : Zone) (oRegistro oUpdate : Outcome) (widget : Controllo)
    (f : ControlCheck) (b : Backend) :
    (f.dataControllo.parsed = none →
      f.conferma zone oRegistro oUpdate widget b = (.exception, b)) ∧
    ∀ u v, f.dataControllo.parsed = some u → f.dataProssimo.parsed = some v →
      let b' := (f.conferma zone oRegistro oUpdate widget b).2
      let r := registro widget f u
      (RegistroSucceeds zone r oRegistro → Registered zone r b b') ∧
      (¬ RegistroSucceeds zone r oRegistro → b'.registroControlli = b.registroControlli) ∧
      (UpdateSucceeds widget b oUpdate → DatesSet widget u v b b') ∧
      (¬ UpdateSucceeds widget b oUpdate → b'.controlli = b.controlli) ∧
      ((RegistroSucceeds zone r oRegistro ↔ UpdateSucceeds widget b oUpdate) →
        (Registered zone r b b' ∧ DatesSet widget u v b b') ∨
          (b'.registroControlli = b.registroControlli ∧ b'.controlli = b.controlli)) := by
  refine ⟨conferma_of_ultimo_none zone oRegistro oUpdate widget f b, ?_⟩
  intro u v hultimo hprossimo b' r
  obtain ⟨hregistered, hunregistered⟩ :=
    registro_effect zone oRegistro oUpdate widget f b hultimo
  obtain ⟨hset, hunset⟩ := controlli_effect zone oRegistro oUpdate widget f b hultimo hprossimo
  refine ⟨hregistered, hunregistered, hset, hunset, ?_⟩
  intro hsame
  by_cases hsucceeds : RegistroSucceeds zone r oRegistro
  · exact Or.inl ⟨hregistered hsucceeds, hset (hsame.mp hsucceeds)⟩
  · exact Or.inr ⟨hunregistered hsucceeds, hunset fun h => hsucceeds (hsame.mpr h)⟩

/-- A form with two typed dates. -/
def typedDates (ultimo prossimo : String) : ControlCheck where
  dataControllo := .typed ultimo
  dataProssimo := .typed prossimo

/-- The machine that is checked. -/
def macchinaM1 : Controllo where
  cod := "M1"
  tipo := "Forni"
  periodo := "Annuale"
  descrizione := "Pulizia"
  dataUltimoControllo := .midnight (.normalize 2022 1 15)
  dataProssimoControllo := .midnight (.normalize 2023 1 15)
  scheda := "schede/M1"

/-- The remote state in which the machine is stored. -/
def macchine : Backend :=
  { Backend.empty with controlli := setDoc ["M1"] macchinaM1.toJson ∅ }

/-- The day that the typed texts `16/01/2023` and `16/01/2024` denote. -/
def gennaio16 (year : ℤ) : DateTime :=
  .midnight (.normalize year 1 16)

/-- A check with two ordinary dates and two accepted writes has both effects, and one
whose date cannot be parsed has none. -/
theorem conferma_effects_M1 :
    (typedDates "16/1/2023" "16/01/2024").conferma (Zone.fixed 0) .success .success macchinaM1
        macchine = (.exception, macchine) ∧
      ((Registered (Zone.fixed 0)
            (registro macchinaM1 (typedDates "16/01/2023" "16/01/2024") (gennaio16 2023)) macchine
            ((typedDates "16/01/2023" "16/01/2024").conferma (Zone.fixed 0) .success .success
              macchinaM1 macchine).2 ∧
          DatesSet macchinaM1 (gennaio16 2023) (gennaio16 2024) macchine
            ((typedDates "16/01/2023" "16/01/2024").conferma (Zone.fixed 0) .success .success
              macchinaM1 macchine).2)) := by
  have heffects := (conferma_effects (Zone.fixed 0) .success .success macchinaM1
    (typedDates "16/01/2023" "16/01/2024") macchine).2 (gennaio16 2023) (gennaio16 2024)
      (by decide +kernel) (by decide +kernel)
  refine ⟨(conferma_effects _ _ _ _ (typedDates "16/1/2023" "16/01/2024") _).1 (by decide +kernel),
    heffects.1 ?_, heffects.2.2.1 ?_⟩
  · exact ⟨rfl, by decide +kernel⟩
  · exact ⟨rfl, ["M1"], by decide +kernel, by decide +kernel⟩

/-- Both forms are valid. In the first the text of the next check cannot be parsed, in
the second the update is refused: the register gets its entry, and the machine keeps
its dates. -/
theorem check_partial_M1 :
    ((typedDates "16/01/2023" "16/1/2024").valid ∧
      let r := (typedDates "16/01/2023" "16/1/2024").conferma (Zone.fixed 0) .success .success
        macchinaM1 macchine
      r.1 = .exception ∧ r.2.registroControlli.keys = [["M12023-01-16T00:00:00.000Z"]] ∧
        getControllo "M1" r.2 = some macchinaM1) ∧
    ((typedDates "16/01/2023" "16/01/2024").valid ∧
      let r := (typedDates "16/01/2023" "16/01/2024").conferma (Zone.fixed 0) .success .failure
        macchinaM1 macchine
      r.1 = .normal ∧ r.2.registroControlli.keys = [["M12023-01-16T00:00:00.000Z"]] ∧
        getControllo "M1" r.2 = some macchinaM1) := by
  decide +kernel

end ControlCheck

end EthosApp
