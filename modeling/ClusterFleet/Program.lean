import ClusterFleet.Cluster.Descriptor
import ClusterFleet.Connection.Basic
import ClusterFleet.Http.Answer
import ClusterFleet.Store.Failure
import ClusterFleet.Table

namespace ClusterFleet

abbrev SecretData := Table String

/-- What fills the cache when something is missing from it. -/
inductive RefreshHook where
  /-- The registration service registers all that is stored; without the service, nothing. -/
  | reload (settings : RegistrationSettings)
  /-- After a while, add these connections. -/
  | preload (delay : Nat) (connections : List Connection)

inductive Action where
  | lookUp (name : String)
  | insert (c : Connection)
  | erase (name : String)
  | clear
  | connections
  /-- How many refreshes have been completed. -/
  | refreshCount
  /-- Waits for the turn to refresh. -/
  | takeTurn
  | endTurn
  | countRefresh
  | refreshHook
  /-- Tells that a refresh hook has begun. -/
  | hookBegins
  /-- Whether the registration service is still there. -/
  | serviceHeld
  | findCluster (name : String)
  | listClusters
  | writeStatus (name : String) (s : Status)
  | readSecret (ns name : String)
  | buildClient (config : RestConfig)
  /-- Asks a remote cluster for its liveness. -/
  | probe (c : Client)
  | now
  /-- Lets so many milliseconds pass. -/
  | sleep (ms : Nat)

def Action.isRequest : Action → Bool
  | .findCluster _ | .listClusters | .writeStatus _ _ | .readSecret _ _ | .probe _ => true
  | _ => false

@[reducible] def Action.Reply : Action → Type
  | .lookUp _ => Option Connection
  | .connections => List Connection
  | .refreshCount => UInt64
  | .refreshHook => Option RefreshHook
  | .serviceHeld => Bool
  | .findCluster _ => Except StoreError (Option Descriptor)
  | .listClusters => Except StoreError (List Descriptor)
  | .writeStatus _ _ => Except StoreError Unit
  | .readSecret _ _ => Except StoreError (Option SecretData)
  | .buildClient _ => BuildOutcome
  | .probe _ => Http.Answer
  | .now => Instant
  | _ => Unit

/-- How actions are answered: with a reply, and with what becomes of the state. -/
abbrev Handler (σ : Type) := σ → (a : Action) → a.Reply × σ

/--
What the parts of the operator do: a tree of actions on the world around it. Between two actions of
one program any other program may act, so that a program says exactly where it can be interrupted.
-/
inductive Program (α : Type) where
  | done (a : α)
  /-- Ends without a result. -/
  | crash
  | call (act : Action) (next : act.Reply → Program α)

namespace Program

def bind (p : Program α) (f : α → Program β) : Program β :=
  match p with
  | .done a => f a
  | .crash => .crash
  | .call act next => .call act fun r => (next r).bind f

instance : Monad Program where
  pure := .done
  bind := bind

def act (a : Action) : Program a.Reply := .call a .done

theorem bind_done (p : Program α) : p.bind .done = p := by
  induction p with
  | done => rfl
  | crash => rfl
  | call act next ih => simp only [bind, ih]

theorem bind_assoc (p : Program α) (f : α → Program β) (g : β → Program γ) :
    (p.bind f).bind g = p.bind fun a => (f a).bind g := by
  induction p with
  | done => rfl
  | crash => rfl
  | call act next ih => simp only [bind, ih]

instance : LawfulMonad Program := LawfulMonad.mk' Program
  (fun p => bind_done p) (fun _ _ => rfl) (fun p f g => bind_assoc p f g)

/-- Runs a program with nobody else acting; a crash leaves no result. -/
def runBy (h : Handler σ) : Program α → σ → Option α × σ
  | .done a, s => (some a, s)
  | .crash, s => (none, s)
  | .call act next, s => let (r, s) := h s act; (next r).runBy h s

@[simp] theorem act_bind (a : Action) (f : a.Reply → Program β) :
    @Bind.bind Program _ (no_index a.Reply) β (act a) f = .call a f := rfl

@[simp] theorem call_bind (a : Action) (next : a.Reply → Program α) (f : α → Program β) :
    call a next >>= f = .call a fun r => next r >>= f := rfl

@[simp] theorem crash_bind (f : α → Program β) : (crash : Program α) >>= f = .crash := rfl

@[simp] theorem runBy_call (h : Handler σ) (a : Action) (next : a.Reply → Program α) (s : σ) :
    (Program.call a next).runBy h s = (next (h s a).1).runBy h (h s a).2 := rfl

@[simp] theorem runBy_pure (h : Handler σ) (a : α) (s : σ) :
    (pure a : Program α).runBy h s = (some a, s) := rfl

@[simp] theorem runBy_crash (h : Handler σ) (s : σ) :
    (Program.crash : Program α).runBy h s = (none, s) := rfl

theorem runBy_bind (h : Handler σ) (p : Program α) (f : α → Program β) (s : σ) :
    (p >>= f).runBy h s = match p.runBy h s with
      | (some a, s) => (f a).runBy h s
      | (none, s) => (none, s) := by
  induction p generalizing s with
  | done => rfl
  | crash => rfl
  | call act next ih => exact ih _ _

end Program
end ClusterFleet
