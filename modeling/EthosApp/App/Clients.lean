import EthosApp.Screens.Navigation
import EthosApp.Store.Confirms

/-!
# The clients of the app

Any number of clients use the app on one remote state. Each client has a stack of pages,
and a page holds the data that its screen was opened with or has loaded: the records of a
list, the record that is viewed, edited or checked, and the form that is being filled. A
handler that awaits is taken as one action, as is a list that is loaded by a page of the
stack at any time.
-/

namespace EthosApp

open Dart Firestore DocStore

namespace App

/-- A route of a client with its data. -/
inductive Page
  | splash
  | login
  /-- The home page with the selected day and the cards of its agenda. -/
  | home (giorno : DateTime) (cards : List Controllo)
  | logoutDialog
  /-- The form of a new machine. -/
  | add (f : Add)
  /-- The search dialog with its text. -/
  | searchDialog (codice : String)
  | unregisteredMachineAlert (codice : String)
  | qrCode
  /-- The list of all machines with its cards. -/
  | allControls (cards : List Controllo)
  | controlView (controllo : Controllo)
  | editDialog (controllo : Controllo)
  | checkDialog (controllo : Controllo)
  /-- The form of an edit. Where it cannot be built on the record, the page shows an error
  and is left without a question. -/
  | editControl (controllo : Controllo) (f : Option EditControl)
  | controlCheck (controllo : Controllo) (f : ControlCheck)
  /-- The dialog that asks to confirm the form under it. For a new machine it shows whether
  the code was found, once its lookup has been answered. -/
  | saveDialog (presente : Option Bool)
  | exitDialog
  | picker

/-- The route of a page. -/
def Page.route : Page → Navigation.Route
  | splash => .splash
  | login => .login
  | home _ _ => .home
  | logoutDialog => .logoutDialog
  | add _ => .add
  | searchDialog _ => .searchDialog
  | unregisteredMachineAlert _ => .unregisteredMachineAlert
  | qrCode => .qrCode
  | allControls _ => .allControls
  | controlView _ => .controlView
  | editDialog _ => .editDialog
  | checkDialog _ => .checkDialog
  | editControl _ _ => .editControl
  | controlCheck _ _ => .controlCheck
  | saveDialog _ => .saveDialog
  | exitDialog => .exitDialog
  | picker => .picker

/-- The records that a page holds. -/
def Page.held : Page → List Controllo
  | home _ cards => cards
  | allControls cards => cards
  | controlView x => [x]
  | editDialog x => [x]
  | checkDialog x => [x]
  | editControl x _ => [x]
  | controlCheck x _ => [x]
  | _ => []

/-- A client: its stack of pages, top first, and whether a user is signed in. -/
structure Client where
  /-- The pages, top first. -/
  stack : List Page
  /-- Whether a user is signed in. -/
  signedIn : Bool

/-- A page is opened. -/
def Client.push (c : Client) (p : Page) : Client := { c with stack := p :: c.stack }

/-- The top page is replaced. -/
def Client.replace (c : Client) (p : Page) : Client := { c with stack := p :: c.stack.tail }

/-- The top page is closed. The last page is not closed: the app is left instead. -/
def Client.pop (c : Client) : Option Client :=
  match c.stack with
  | _ :: q :: rest => some { c with stack := q :: rest }
  | _ => none

/-- What a user or a client can do. -/
inductive Action
  | goToNextPage
  | entra
  | logoutIcon
  | logout
  | aggiungi
  | cercaConCodice
  | scanner
  | esitoControlli
  | macchineRegistrate
  /-- A day of the calendar is selected. -/
  | giorno (g : DateTime)
  /-- A list in the stack is loaded. -/
  | carica (n : ℕ) (o : Outcome)
  | mostraRiepilogo (i : ℕ)
  /-- The text of the search dialog is changed. -/
  | codice (s : String)
  /-- The code of the search dialog is looked up. -/
  | cerca (o : Outcome)
  /-- A code is scanned and looked up. -/
  | inquadra (code : String) (o : Outcome)
  | si
  | modifica
  | effettuaControllo
  /-- The dialogs before the forms are confirmed. -/
  | apri
  /-- The three forms are filled. -/
  | compilaAdd (a : Add.Action)
  | compilaEdit (a : EditControl.Action)
  | compilaCheck (a : ControlCheck.Action)
  | fotocamera
  | picker
  | salva
  /-- The lookup of the dialog that confirms a new machine is answered. -/
  | presente (o : Outcome)
  /-- A form is confirmed, with the answers to the two writes of its handler. -/
  | conferma (o o' : Outcome)
  | esci
  | backButton
  | back

/-- The cards of a list, which shows none where its query fails. -/
def shown (o : Outcome) (cards : Option (List Controllo)) : List Controllo :=
  match o with
  | .success => cards.getD []
  | .failure => []

/-- A page whose list has been loaded. -/
def Page.load (o : Outcome) (b : Backend) : Page → Option Page
  | home g _ => some (home g (shown o (getControlliPerData g Hour.ten.text b)))
  | allControls _ => some (allControls (shown o (getAllControls b)))
  | _ => none

/-- What is opened for a code: the machine, or the offer to register it. Nothing is opened
where reading the machine throws an exception. -/
def lookup (o : Outcome) (codice : String) (b : Backend) : Option Page :=
  if isControlloPresente o codice b then (getControllo codice b).map Page.controlView
  else some (.unregisteredMachineAlert codice)

/-- The handler of a form has run: where it completes normally, the home page is opened. -/
def saved (now : DateTime) (c : Client) (r : Completion × Backend) : Client × Backend :=
  (if r.1 = .normal then c.push (.home now []) else c, r.2)

/-- The confirmed handler of the form under a dialog. -/
def confirm (zone : Zone) (o o' : Outcome) (presente : Option Bool) : Page → Option Command
  | .add f => if presente = some false then some (f.conferma o o') else none
  | .editControl _ (some f) => some (f.conferma o o')
  | .controlCheck x f => some (f.conferma zone o o' x)
  | _ => none

/-- What the top page does with an action that it offers, at a given time. -/
def handle (zone : Zone) (now : DateTime) (b : Backend) (c : Client) :
    Page → Action → Option (Client × Backend)
  | .splash, .goToNextPage =>
    some (c.replace (if c.signedIn then .home now [] else .login), b)
  | .login, .entra => some ({ c.replace (.home now []) with signedIn := true }, b)
  | .home _ _, .logoutIcon => some (c.push .logoutDialog, b)
  | .home _ _, .aggiungi => some (c.push (.add (Add.initState "")), b)
  | .home _ _, .cercaConCodice => some (c.push (.searchDialog ""), b)
  | .home _ _, .scanner => some (c.push .qrCode, b)
  | .home _ _, .esitoControlli => some (c.push .picker, b)
  | .home _ _, .macchineRegistrate => some (c.push (.allControls []), b)
  | .home _ _, .giorno g => some (c.replace (.home g []), b)
  | .home _ cards, .mostraRiepilogo i => cards[i]?.map fun x => (c.push (.controlView x), b)
  | .logoutDialog, .logout =>
    c.pop.map fun c' => ({ c'.replace .login with signedIn := false }, b)
  | .searchDialog _, .codice s => some (c.replace (.searchDialog s), b)
  | .searchDialog codice, .cerca o =>
    if codice = "" then some (c, b)
    else
      match lookup o codice b with
      | some p => some (c.push p, b)
      | none => some (c, b)
  | .unregisteredMachineAlert codice, .si => some (c.replace (.add (Add.initState codice)), b)
  | .qrCode, .inquadra code o =>
    match lookup o code b with
    | some (.controlView x) => some (c.replace (.controlView x), b)
    | some p => some (c.push p, b)
    | none => some (c, b)
  | .qrCode, .backButton => c.pop.map fun c' => (c', b)
  | .allControls cards, .mostraRiepilogo i =>
    cards[i]?.map fun x => (c.push (.controlView x), b)
  | .allControls _, .backButton => some (c.push (.home now []), b)
  | .controlView x, .modifica => some (c.push (.editDialog x), b)
  | .controlView x, .effettuaControllo => some (c.push (.checkDialog x), b)
  | .controlView _, .backButton => c.pop.map fun c' => (c', b)
  | .editDialog x, .apri => some (c.replace (.editControl x (EditControl.initState x)), b)
  | .checkDialog x, .apri => some (c.replace (.controlCheck x ControlCheck.initState), b)
  | .add f, .compilaAdd a => (Add.act f a).map fun f' => (c.replace (.add f'), b)
  | .add _, .fotocamera => some (c.replace .qrCode, b)
  | .add _, .picker => some (c.push .picker, b)
  | .add f, .salva => if f.valid then some (c.push (.saveDialog none), b) else some (c, b)
  | .add _, .backButton => some (c.push .exitDialog, b)
  | .add _, .back => some (c.push .exitDialog, b)
  | .editControl x (some f), .compilaEdit a =>
    (EditControl.act f a).map fun f' => (c.replace (.editControl x (some f')), b)
  | .editControl _ (some _), .fotocamera => some (c.replace .qrCode, b)
  | .editControl _ (some _), .picker => some (c.push .picker, b)
  | .editControl _ (some f), .salva =>
    if f.valid then some (c.push (.saveDialog none), b) else some (c, b)
  | .editControl _ (some _), .backButton => some (c.push .exitDialog, b)
  | .editControl _ (some _), .back => some (c.push .exitDialog, b)
  | .controlCheck x f, .compilaCheck a =>
    (ControlCheck.act f a).map fun f' => (c.replace (.controlCheck x f'), b)
  | .controlCheck _ _, .picker => some (c.push .picker, b)
  | .controlCheck _ f, .salva =>
    if f.valid then some (c.push (.saveDialog none), b) else some (c, b)
  | .controlCheck _ _, .backButton => c.pop.map fun c' => (c', b)
  | .controlCheck _ _, .back => some (c.push .exitDialog, b)
  | .saveDialog presente, .presente o =>
    match c.stack with
    | _ :: .add f :: _ =>
      match docPath f.codice, o with
      | some p, .success =>
        some (c.replace (.saveDialog (some (b.controlli.lookup p).isSome)), b)
      | _, _ => some (c.replace (.saveDialog presente), b)
    | _ => none
  | .saveDialog presente, .conferma o o' =>
    match c.stack with
    | _ :: form :: _ => (confirm zone o o' presente form).map fun h => saved now c (h b)
    | _ => none
  | .exitDialog, .esci => c.pop.bind fun c' => c'.pop.map fun c'' => (c'', b)
  | .splash, .back => none
  | _, .back => c.pop.map fun c' => (c', b)
  | _, _ => none

/-- One action of a client. -/
def clientStep (zone : Zone) (now : DateTime) (b : Backend) (c : Client) :
    Action → Option (Client × Backend)
  | .carica n o =>
    (c.stack[n]?.bind (Page.load o b)).map fun p => ({ c with stack := c.stack.set n p }, b)
  | a => c.stack.head?.bind fun p => handle zone now b c p a

/-- The remote state and the clients. -/
structure State where
  /-- The remote state. -/
  backend : Backend
  /-- The clients. -/
  clients : ℕ → Client

/-- The app is launched by every client, with the user of its last launch, before any
machine is registered. -/
def State.start (signedIn : ℕ → Bool) : State :=
  ⟨Backend.empty, fun i => ⟨[.splash], signedIn i⟩⟩

/-- An action of a client at a time. -/
structure Event where
  /-- The client. -/
  client : ℕ
  /-- The time of its device. -/
  now : DateTime
  /-- What it does. -/
  action : Action

/-- One event. -/
def step (zone : Zone) (s : State) (e : Event) : Option State :=
  (clientStep zone e.now s.backend (s.clients e.client) e.action).map fun r =>
    ⟨r.2, Function.update s.clients e.client r.1⟩

end App

end EthosApp
