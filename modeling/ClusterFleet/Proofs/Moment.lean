import ClusterFleet.World

namespace ClusterFleet

/-- A reply to an action that no program at hand ever takes. -/
def Action.blank : (a : Action) → a.Reply
  | .lookUp _ => none
  | .connections => []
  | .refreshCount => 0
  | .refreshHook => none
  | .serviceHeld => true
  | .findCluster _ => .ok none
  | .listClusters => .ok []
  | .writeStatus name _ => .error (.notFound name)
  | .readSecret _ _ => .ok none
  | .buildClient _ => .crashed
  | .probe _ => .failed
  | .now => ⟨0, 0⟩
  | .insert _ | .erase _ | .clear | .takeTurn | .endTurn | .countRefresh | .hookBegins
  | .sleep _ => ()

def Action.leaves (t : Table Connection) : Action → Table Connection
  | .insert c => t.insert c.name c
  | .erase name => t.erase name
  | .clear => []
  | _ => t

/-- Each connection is under its own name. -/
def Filed (t : Table Connection) : Prop := ∀ e ∈ t, e.2.name = e.1

section
variable {t t' : Table Connection} {name : String}

theorem Action.find?_leaves_congr (h : t.find? name = t'.find? name) (a : Action) :
    (a.leaves t).find? name = (a.leaves t').find? name := by
  cases a with
  | insert c =>
    by_cases hn : name = c.name
    · subst hn
      exact (Table.find?_insert_self ..).trans (Table.find?_insert_self ..).symm
    · exact (Table.find?_insert_of_ne hn ..).trans (h.trans (Table.find?_insert_of_ne hn ..).symm)
  | erase other =>
    by_cases hn : name = other
    · subst hn
      exact (Table.find?_erase_self ..).trans (Table.find?_erase_self ..).symm
    · exact (Table.find?_erase_of_ne hn _).trans (h.trans (Table.find?_erase_of_ne hn _).symm)
  | clear => rfl
  | _ => exact h

theorem Filed.find? (h : Filed t) {c : Connection} (hc : t.find? name = some c) : c.name = name :=
  h _ (Table.mem_of_find? hc)

theorem filed_nil : Filed [] := fun _ he => absurd he List.not_mem_nil

theorem Filed.leaves (h : Filed t) (a : Action) : Filed (a.leaves t) := by
  intro e he
  cases a with
  | insert c =>
    rcases Table.mem_insert he with rfl | he
    · rfl
    · exact h e he
  | erase name => exact h e (List.mem_filter.1 he).1
  | clear => cases he
  | _ => exact h e he

end

/-- What is outside of a world while an action takes place. -/
structure Moment where
  /-- Why no descriptor can be read, if none can. -/
  unread : Option StoreError := none
  unlisted : Option StoreError := none
  unwritten : Option StoreError := none
  /-- Why no secret can be read. -/
  sealed : Option StoreError := none
  answer : Client → Http.Answer
  reading : Instant

structure Move where
  task : Nat
  moment : Moment

namespace World

/-- Asks the store, unless there is a reason why it gives no answer. -/
def ask (w : World) (reason : Option StoreError) (call : Store → Except StoreError α × Store) :
    Except StoreError α × World :=
  match reason with
  | some e => (.error e, w)
  | none => ((call w.store).1, { w with store := (call w.store).2 })

/-- The world does what is asked of it, as far as the moment lets it. -/
def respond (build : RestConfig → BuildOutcome) (m : Moment) (w : World) :
    (a : Action) → a.Reply × World
  | .findCluster name => w.ask m.unread (Store.find name)
  | .listClusters => w.ask m.unlisted Store.list
  | .writeStatus name st => match m.unwritten with
    | some e => (.error e, w)
    | none => w.writeStatus name st
  | .readSecret ns name => w.ask m.sealed (Store.secret ns name)
  | .buildClient config => (build config, (w.perform (.buildClient config)).2)
  | .probe c => (m.answer c, (w.perform (.probe c)).2)
  | .now => (m.reading, (w.perform .now).2)
  | a => w.perform a

def respondTo (build : RestConfig → BuildOutcome) (m : Moment) (task : Nat) (w : World)
    (a : Action) : Option a.Reply × World :=
  match a with
  | .takeTurn => w.step task .takeTurn
  | a => (some (w.respond build m a).1, (w.respond build m a).2)

/-- The moment that a world is in by itself. -/
def moment (w : World) : Moment where
  unread := w.faults.get.map Fault.error
  unlisted := w.faults.list.map Fault.error
  unwritten := w.faults.update.map Fault.error
  sealed := w.faults.secret.map Fault.error
  answer := w.remoteAnswer
  reading := w.clock.read.1

theorem connections_respond (build : RestConfig → BuildOutcome) (m : Moment) (w : World)
    (a : Action) : (w.respond build m a).2.connections = a.leaves w.connections := by
  cases a with
  | findCluster name =>
    simp only [respond, ask]
    cases m.unread <;> rfl
  | listClusters =>
    simp only [respond, ask]
    cases m.unlisted <;> rfl
  | readSecret ns name =>
    simp only [respond, ask]
    cases m.sealed <;> rfl
  | writeStatus name st =>
    simp only [respond]
    cases m.unwritten <;> rfl
  | _ => rfl

variable {α : Type} (w : World)

theorem ask_map_error (fault : Option Fault) (call : Store → Except StoreError α × Store) :
    w.ask (fault.map Fault.error) call = w.guarded fault call := by
  cases fault <;> rfl

theorem respond_moment (a : Action) : w.respond w.factory.build w.moment a = w.perform a := by
  cases a with
  | findCluster name => exact w.ask_map_error w.faults.get (Store.find name)
  | listClusters => exact w.ask_map_error w.faults.list Store.list
  | readSecret ns name => exact w.ask_map_error w.faults.secret (Store.secret ns name)
  | writeStatus name st =>
    simp only [respond, moment, perform]
    cases w.faults.update <;> rfl
  | _ => rfl

theorem respondTo_moment (task : Nat) (a : Action) :
    w.respondTo w.factory.build w.moment task a = w.step task a := by
  cases a with
  | takeTurn => rfl
  | _ =>
    simp only [respondTo, respond_moment]
    rfl

theorem connections_perform (a : Action) :
    (w.perform a).2.connections = a.leaves w.connections := by
  rw [← respond_moment, connections_respond]

theorem filed_run {w : World} (h : Filed w.connections) (p : Program α) :
    Filed (p.run w).2.connections := by
  induction p generalizing w with
  | done v => exact h
  | crash => exact h
  | call a next ih => exact ih _ (w.connections_perform a ▸ h.leaves a)

end World
end ClusterFleet
