import EthosApp.Screens.AddControl
import EthosApp.Screens.CheckControl
import EthosApp.Screens.EditControl

/-!
# Forms that are confirmed again

A form stays open when its handler fails, and can be confirmed again. The two writes of a
handler do not depend on what is stored, and each of them does the same every time. So any
number of attempts leaves the remote state that one attempt leaves whose writes succeed if
they succeeded in some attempt.
-/

namespace EthosApp

open Dart Firestore DocStore

/-- Some attempt succeeded. -/
def anySuccess (os : List Outcome) : Outcome := if .success ∈ os then .success else .failure

/-- The remote state after several attempts to confirm a form, oldest first. -/
def attempts (conferma : Outcome → Outcome → Command) (os : List (Outcome × Outcome))
    (b : Backend) : Backend :=
  os.foldl (fun b o => (conferma o.1 o.2 b).2) b

/-- Some first write succeeded. -/
theorem any_fst (os : List (Outcome × Outcome)) :
    decide (anySuccess (os.map Prod.fst) = .success) = os.any fun o => decide (o.1 = .success) := by
  unfold anySuccess
  rw [Bool.eq_iff_iff]
  simp

/-- Some second write succeeded. -/
theorem any_snd (os : List (Outcome × Outcome)) :
    decide (anySuccess (os.map Prod.snd) = .success) = os.any fun o => decide (o.2 = .success) := by
  unfold anySuccess
  rw [Bool.eq_iff_iff]
  simp

/-- An attempt for which some condition on its outcomes holds does the same idempotent thing
to a part of the remote state, and another one leaves it alone. -/
def Repeats {β : Type} (conferma : Outcome → Outcome → Command) (part : Backend → β)
    (ok : Outcome × Outcome → Bool) : Prop :=
  ∃ g : β → β, (∀ x, g (g x) = g x) ∧
    ∀ b o, part (conferma o.1 o.2 b).2 = if ok o then g (part b) else part b

/-- A part that a handler leaves alone. -/
theorem Repeats.of_frame {β : Type} {conferma : Outcome → Outcome → Command} {part : Backend → β}
    (hframe : ∀ o o' b, part (conferma o o' b).2 = part b) :
    Repeats conferma part fun _ => false :=
  ⟨id, fun _ => rfl, fun b o => hframe o.1 o.2 b⟩

/-- Several attempts leave what one of them leaves that succeeds where some of them does. -/
theorem attempts_eq {conferma : Outcome → Outcome → Command}
    {ok ok' ok'' : Outcome × Outcome → Bool} (hcontrolli : Repeats conferma Backend.controlli ok)
    (hregistro : Repeats conferma Backend.registroControlli ok')
    (hstorage : Repeats conferma Backend.storage ok'') {os : List (Outcome × Outcome)}
    (o : Outcome × Outcome) (ho : ok o = os.any ok) (ho' : ok' o = os.any ok')
    (ho'' : ok'' o = os.any ok'') (b : Backend) :
    attempts conferma os b = (conferma o.1 o.2 b).2 := by
  obtain ⟨g, hg, hpart⟩ := hcontrolli
  obtain ⟨g', hg', hpart'⟩ := hregistro
  obtain ⟨g'', hg'', hpart''⟩ := hstorage
  have hparts : ∀ b b' : Backend, b.controlli = b'.controlli →
      b.registroControlli = b'.registroControlli → b.storage = b'.storage → b = b' := by
    rintro ⟨_, _, _⟩ ⟨_, _, _⟩ rfl rfl rfl
    rfl
  exact hparts _ _ (part_foldl Backend.controlli ok hpart hg ho b)
    (part_foldl Backend.registroControlli ok' hpart' hg' ho' b)
    (part_foldl Backend.storage ok'' hpart'' hg'' ho'' b)

/-- The write of a record is repeated if it does the same every time. -/
theorem repeats_write {conferma : Outcome → Outcome → Command} {α : Type}
    {part : Backend → Collection} (sel : Outcome × Outcome → Outcome)
    (writes : Outcome → Option (Path × α)) (write : Path → α → Collection → Collection)
    (hwrite : ∀ p r c, write p r (write p r c) = write p r c) (hnone : writes .failure = none)
    (hpart : ∀ b (o : Outcome × Outcome), part (conferma o.1 o.2 b).2 =
      (writes (sel o)).elim (part b) fun w => write w.1 w.2 (part b)) :
    Repeats conferma part fun o => decide (sel o = .success) := by
  refine ⟨fun c => (writes .success).elim c fun w => write w.1 w.2 c, ?_, ?_⟩
  · intro c
    cases writes .success with
    | none => rfl
    | some w => exact hwrite w.1 w.2 c
  · intro b o
    rw [hpart]
    have hcases : sel o = .success ∨ sel o = .failure := by cases sel o <;> simp
    rcases hcases with hsel | hsel
    · simp [hsel]
    · simp [hsel, hnone]

/-- An upload is repeated. -/
theorem repeats_upload {conferma : Outcome → Outcome → Command}
    (uploads : Outcome → Option (String × File)) (hnone : uploads .failure = none)
    (hpart : ∀ b (o : Outcome × Outcome),
      (conferma o.1 o.2 b).2.storage = afterUpload b.storage (uploads o.2)) :
    Repeats conferma Backend.storage fun o => decide (o.2 = .success) := by
  refine ⟨fun storage => afterUpload storage (uploads .success), ?_, ?_⟩
  · intro storage
    rcases uploads .success with _ | ⟨path, file⟩
    · rfl
    · simp [afterUpload]
  · rintro b ⟨o, o'⟩
    rw [hpart]
    cases o' with
    | success => rfl
    | failure => simp [hnone, afterUpload]

/-- A record that is set again stays as it is. -/
theorem setDoc_again (p : Path) (c : Controllo) (docs : Collection) :
    setDoc p c.toJson (setDoc p c.toJson docs) = setDoc p c.toJson docs :=
  setDoc_setDoc p c.toJson docs

/-- A record that is updated again stays as it is. -/
theorem updateDoc_again (p : Path) (c : Controllo) (docs : Collection) :
    updateDoc p c.toJson (updateDoc p c.toJson docs) = updateDoc p c.toJson docs :=
  updateDoc_updateDoc p c.toJson docs

/-- A handler that writes a record and then stores a file, each of them if its write is
accepted, does the same when it is repeated. -/
theorem attempts_eq_record {conferma : Outcome → Outcome → Command}
    (writes : Outcome → Option (Path × Controllo)) (uploads : Outcome → Option (String × File))
    (write : Path → Controllo → Collection → Collection)
    (hwrite : ∀ p c docs, write p c (write p c docs) = write p c docs)
    (hwrites : writes .failure = none) (huploads : uploads .failure = none)
    (hcontrolli : ∀ o o' b, (conferma o o' b).2.controlli =
      (writes o).elim b.controlli fun w => write w.1 w.2 b.controlli)
    (hregistro : ∀ o o' b, (conferma o o' b).2.registroControlli = b.registroControlli)
    (hstorage : ∀ o o' b, (conferma o o' b).2.storage = afterUpload b.storage (uploads o'))
    (os : List (Outcome × Outcome)) (b : Backend) :
    attempts conferma os b =
      (conferma (anySuccess (os.map Prod.fst)) (anySuccess (os.map Prod.snd)) b).2 := by
  have hrecord : Repeats conferma Backend.controlli fun o => decide (o.1 = .success) :=
    repeats_write Prod.fst writes write hwrite hwrites fun b o => hcontrolli o.1 o.2 b
  have hfile : Repeats conferma Backend.storage fun o => decide (o.2 = .success) :=
    repeats_upload uploads huploads fun b o => hstorage o.1 o.2 b
  exact attempts_eq hrecord (Repeats.of_frame hregistro) hfile (_, _) (any_fst os) (by simp)
    (any_snd os) b

/-- An `Add` that is confirmed again sets the same record and stores the same file. -/
theorem Add.attempts_eq (f : Add) (os : List (Outcome × Outcome)) (b : Backend) :
    attempts f.conferma os b =
      (f.conferma (anySuccess (os.map Prod.fst)) (anySuccess (os.map Prod.snd)) b).2 := by
  refine attempts_eq_record f.writes f.uploads (fun p c => setDoc p c.toJson) setDoc_again
    (by simp [Add.writes, writtenPath])
    (by simp [Add.uploads, Add.uploadsWith, uploaded]) (fun o o' b => ?_)
    f.conferma_registro f.conferma_storage os b
  rw [f.conferma_controlli]
  cases f.writes o <;> rfl

/-- An edit that is confirmed again updates the same record and stores the same file. -/
theorem EditControl.attempts_eq (f : EditControl) (os : List (Outcome × Outcome)) (b : Backend) :
    attempts f.conferma os b =
      (f.conferma (anySuccess (os.map Prod.fst)) (anySuccess (os.map Prod.snd)) b).2 := by
  refine attempts_eq_record f.writes f.uploads (fun p c => updateDoc p c.toJson) updateDoc_again
    (by simp [EditControl.writes, writtenPath])
    (by simp [EditControl.uploads, EditControl.uploadsWith, uploaded]) (fun o o' b => ?_)
    f.conferma_registro f.conferma_storage os b
  rw [f.conferma_controlli]
  cases f.writes o <;> rfl

/-- A check that is confirmed again registers the same entry and updates the same record. -/
theorem ControlCheck.attempts_eq (f : ControlCheck) (zone : Zone) (widget : Controllo)
    (os : List (Outcome × Outcome)) (b : Backend) :
    attempts (fun o o' => f.conferma zone o o' widget) os b =
      (f.conferma zone (anySuccess (os.map Prod.fst)) (anySuccess (os.map Prod.snd))
        widget b).2 := by
  have hwrites : f.writes .failure widget = none := by simp [ControlCheck.writes, writtenPath]
  have hregisters : f.registers zone .failure widget = none := by
    simp [ControlCheck.registers, writtenPath]
  have hcontrolli : Repeats (fun o o' => f.conferma zone o o' widget) Backend.controlli
      fun o => decide (o.2 = .success) := by
    refine repeats_write Prod.snd (fun o => f.writes o widget) (fun p c => updateDoc p c.toJson)
      updateDoc_again hwrites fun b o => ?_
    rw [f.conferma_controlli]
    cases f.writes o.2 widget <;> rfl
  have hregistro : Repeats (fun o o' => f.conferma zone o o' widget) Backend.registroControlli
      fun o => decide (o.1 = .success) := by
    refine repeats_write Prod.fst (fun o => f.registers zone o widget)
      (fun p r => setDoc p r.toJson) (fun p r => setDoc_setDoc p r.toJson) hregisters
      fun b o => ?_
    rw [f.conferma_registro]
    cases f.registers zone o.1 widget <;> rfl
  exact EthosApp.attempts_eq hcontrolli hregistro
    (Repeats.of_frame fun o o' b => f.conferma_storage zone o o' widget b)
    (_, _) (any_snd os) (any_fst os) (by simp) b

/-- **Forms are confirmed again without harm.** Whatever the server answers to the attempts to
confirm one of the three forms, they leave the remote state that a single attempt leaves each
of whose writes succeeds if it succeeded in some attempt. -/
theorem attempts_eq_single :
    (∀ (f : Add) os b, attempts f.conferma os b =
      (f.conferma (anySuccess (os.map Prod.fst)) (anySuccess (os.map Prod.snd)) b).2) ∧
    (∀ (f : EditControl) os b, attempts f.conferma os b =
      (f.conferma (anySuccess (os.map Prod.fst)) (anySuccess (os.map Prod.snd)) b).2) ∧
    ∀ (f : ControlCheck) zone widget os b,
      attempts (fun o o' => f.conferma zone o o' widget) os b =
        (f.conferma zone (anySuccess (os.map Prod.fst)) (anySuccess (os.map Prod.snd))
          widget b).2 :=
  ⟨Add.attempts_eq, EditControl.attempts_eq, ControlCheck.attempts_eq⟩

end EthosApp
