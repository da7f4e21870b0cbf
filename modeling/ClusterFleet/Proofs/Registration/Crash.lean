import ClusterFleet.Proofs.Registration.Following

namespace ClusterFleet

namespace Client

def IsHeaderValue (s : String) : Prop := ∀ c ∈ s.toList, isHeaderChar c

/-- Either no certificates are wanted, or they are PEM text in base 64. -/
def HasReadableAuthority (options : ClientOptions) (config : RestConfig) : Prop :=
  options.insecureOverride.getD config.insecure = false →
    ∀ ca ∈ config.caData, (TrustBundle.ofBase64? ca).isSome

variable {options : ClientOptions} {config : RestConfig}

theorem isHeaderValue_iff {s : String} : IsHeaderValue s ↔ s.toList.all isHeaderChar := by
  rw [IsHeaderValue, List.all_eq_true]

theorem hasScheme_of_ofText? {s : String} (h : (Endpoint.ofText? s).isSome) :
    Endpoint.hasScheme s := by
  unfold Endpoint.ofText? at h
  by_cases hs : Endpoint.hasScheme s
  · exact hs
  · simp [hs] at h

theorem authority?_isSome_iff {k : Kubeconfig} :
    (authority? k).isSome ↔ ∀ ca ∈ k.authorityData, (TrustBundle.ofBase64? ca).isSome := by
  unfold authority?
  cases k.authorityData <;> simp

theorem ofKubeconfig_eq_crashed_iff {k : Kubeconfig} : ofKubeconfig options k = .crashed ↔
    ¬IsHeaderValue k.token ∧ (Endpoint.ofText? k.server).isSome ∧ (authority? k).isSome := by
  rw [isHeaderValue_iff]
  unfold ofKubeconfig
  cases Endpoint.ofText? k.server with
  | none => simp
  | some e =>
    cases authority? k with
    | none => simp
    | some blocks =>
      by_cases ht : k.token.toList.all isHeaderChar
      · by_cases hb : blocks.all acceptsBlock <;> simp [ht, hb]
      · simp [ht]

theorem build_eq_crashed_iff : build options config = .crashed ↔
    ¬IsHeaderValue config.bearerToken ∧ (Endpoint.ofText? config.host).isSome ∧
      HasReadableAuthority options config := by
  unfold build kubeconfig?
  -- What is refused before a client is made lacks an endpoint, or has the empty token.
  by_cases hh : config.host = ""
  · have he : (Endpoint.ofText? "").isSome = false := by decide +kernel
    simp [hh, he]
  by_cases hs : Endpoint.hasScheme config.host
  · by_cases ht : config.bearerToken = ""
    · have hv : IsHeaderValue "" := nofun
      simp [hh, hs, ht, hv]
    · simp only [hh, hs, ht, if_false, Bool.not_true, Bool.false_eq_true]
      rw [ofKubeconfig_eq_crashed_iff, authority?_isSome_iff, HasReadableAuthority]
      cases options.insecureOverride.getD config.insecure <;> simp
  · have he : ¬(Endpoint.ofText? config.host).isSome := mt hasScheme_of_ofText? hs
    simp [hh, hs, he]

end Client

namespace Registration

/--
The secret of the cluster holds a token that no request can carry, and a registration gets as far as
building a client with it.
-/
structure Poisoned (settings : RegistrationSettings) (options : ClientOptions) (d : Descriptor)
    (w : World) : Prop where
  fresh : reusable settings d w = none
  secretRef : d.spec.secretName ≠ ""
  token : ∃ data token, (w.perform (.readSecret d.secretNamespace d.spec.secretName)).1 =
      .ok (some data) ∧
    token? settings.tokenKey data = some token ∧ ¬Client.IsHeaderValue token
  endpoint : (Endpoint.ofText? d.spec.apiEndpoint).isSome
  authority : ∀ token, Client.HasReadableAuthority options (restConfig d token)

theorem factory_perform (w : World) (a : Action) : (w.perform a).2.factory = w.factory := by
  have hg : ∀ {α : Type} (fault : Option Fault) (call : Store → Except StoreError α × Store),
      (w.guarded fault call).2.factory = w.factory := by
    intro α fault call
    cases fault <;> rfl
  cases a with
  | findCluster name => exact hg _ _
  | listClusters => exact hg _ _
  | readSecret ns name => exact hg _ _
  | writeStatus name st =>
    simp only [World.perform]
    cases w.faults.update <;> rfl
  | _ => rfl

theorem factory_run {α : Type} (p : Program α) (w : World) : (p.run w).2.factory = w.factory := by
  induction p generalizing w with
  | done a => rfl
  | crash => rfl
  | call a next ih =>
    have hp := factory_perform w a
    exact (ih _ _).trans hp

section
variable {settings : RegistrationSettings} {options : ClientOptions} {d : Descriptor} {w : World}

theorem dial_run_eq_none_iff (hf : w.factory = { strict := some options }) :
    ((dial settings d).run w).1 = none ↔ d.spec.secretName ≠ "" ∧
      ∃ data config, (w.perform (.readSecret d.secretNamespace d.spec.secretName)).1 = .ok data ∧
        fromSecret settings d data = .ok config ∧ Client.build options config = .crashed := by
  by_cases hs : d.spec.secretName = ""
  · simp [dial, resolve, hs, Program.run]
  · have hf' := (factory_perform w (.readSecret d.secretNamespace d.spec.secretName)).trans hf
    simp only [dial, resolve, hs, if_false, Program.act_bind, Program.call_bind, Program.run,
      Program.runBy_call, ne_eq, not_false_eq_true, true_and]
    cases (w.perform (.readSecret d.secretNamespace d.spec.secretName)).1 with
    | error e => simp
    | ok data =>
      simp only [pure_bind, Except.ok.injEq]
      cases hc : fromSecret settings d data with
      | error e => simp [hc]
      | ok config =>
        have hb : (World.perform (w.perform
            (.readSecret d.secretNamespace d.spec.secretName)).2 (.buildClient config)).1 =
            Client.build options config := by
          simp only [World.perform] at hf' ⊢
          rw [hf']
          rfl
        simp only [Program.runBy_call, hb]
        cases hr : Client.build options config <;> simp [hc, hr]

theorem connect_run_eq_none_iff :
    ((connect settings d).run w).1 = none ↔ ((dial settings d).run w).1 = none := by
  rw [connect_run]
  cases (dial settings d).run w with
  | mk r w' =>
    cases r with
    | none => simp
    | some r => cases r <;> simp

theorem register_run_of_fresh (h : reusable settings d w = none) :
    (register settings d).run w = (connect settings d).run w := by
  rw [register_run, h]

theorem fresh_of_crash (h : ((register settings d).run w).1 = none) :
    reusable settings d w = none := by
  rw [register_run] at h
  cases hr : reusable settings d w with
  | none => rfl
  | some c =>
    rw [hr] at h
    cases h

theorem register_run_eq_none_iff (hf : w.factory = { strict := some options }) :
    ((register settings d).run w).1 = none ↔ Poisoned settings options d w := by
  constructor
  · intro h
    have hr := fresh_of_crash h
    rw [register_run_of_fresh hr, connect_run_eq_none_iff, dial_run_eq_none_iff hf] at h
    obtain ⟨hs, data, config, hdata, hconfig, hcrash⟩ := h
    obtain ⟨table, token, rfl, htoken, rfl⟩ := fromSecret_eq_ok_iff.1 hconfig
    obtain ⟨hvalue, hendpoint, hauthority⟩ := Client.build_eq_crashed_iff.1 hcrash
    exact ⟨hr, hs, ⟨table, token, hdata, htoken, hvalue⟩, hendpoint, fun _ => hauthority⟩
  · intro h
    obtain ⟨table, token, hdata, htoken, hvalue⟩ := h.token
    rw [register_run_of_fresh h.fresh, connect_run_eq_none_iff, dial_run_eq_none_iff hf]
    exact ⟨h.secretRef, some table, restConfig d token, hdata,
      fromSecret_eq_ok_iff.2 ⟨table, token, rfl, htoken, rfl⟩,
      Client.build_eq_crashed_iff.2 ⟨hvalue, h.endpoint, h.authority token⟩⟩

theorem connections_register_of_crash (h : ((register settings d).run w).1 = none) :
    ((register settings d).run w).2.connections = w.connections := by
  have hr := fresh_of_crash h
  rw [register_run_of_fresh hr, connect_run_eq_none_iff] at h
  apply connections_register_of_first hr
  rw [first?_eq_dial]
  cases hd : (dial settings d).run w with
  | mk r w' =>
    rw [hd] at h
    cases h
    rfl

end

def inTurn {α : Type} (p : α → Program Unit) : List α → Program Unit
  | [] => return ()
  | x :: xs => do
    p x
    inTurn p xs

section
variable {settings : RegistrationSettings} {options : ClientOptions} {d : Descriptor} {w : World}

theorem inTurn_run_cons {α : Type} (p : α → Program Unit) (x : α) (xs : List α) (w : World) :
    (inTurn p (x :: xs)).run w = match (p x).run w with
      | (some _, w') => (inTurn p xs).run w'
      | (none, w') => (none, w') := by
  rw [inTurn, Program.run, Program.runBy_bind, Program.run]
  cases (p x).runBy World.perform w with
  | mk r w' => cases r <;> rfl

theorem inTurn_run_of_crash {α : Type} {p : α → Program Unit} {before : List α} {x : α}
    {w w' : World} (hb : (inTurn p before).run w = (some (), w')) (hx : ((p x).run w').1 = none)
    (after : List α) : (inTurn p (before ++ x :: after)).run w = (p x).run w' := by
  induction before generalizing w with
  | nil =>
    cases hb
    rw [List.nil_append, inTurn_run_cons]
    cases hr : (p x).run w' with
    | mk r w'' =>
      rw [hr] at hx
      cases hx
      rfl
  | cons y before ih =>
    rw [inTurn_run_cons] at hb
    rw [List.cons_append, inTurn_run_cons]
    cases hy : (p y).run w with
    | mk r w'' =>
      rw [hy] at hb
      cases r with
      | none => cases hb
      | some u => exact ih hb

theorem exists_crash_of_inTurn {α : Type} {p : α → Program Unit} {xs : List α} {w : World}
    (h : ((inTurn p xs).run w).1 = none) : ∃ before x after w', xs = before ++ x :: after ∧
      (inTurn p before).run w = (some (), w') ∧ ((p x).run w').1 = none := by
  induction xs generalizing w with
  | nil => cases h
  | cons x xs ih =>
    rw [inTurn_run_cons] at h
    cases hx : (p x).run w with
    | mk r w₁ =>
      rw [hx] at h
      cases r with
      | none => exact ⟨[], x, xs, w, rfl, rfl, by rw [hx]⟩
      | some u =>
        obtain ⟨before, y, after, w', rfl, hb, hy⟩ := ih h
        refine ⟨x :: before, y, after, w', rfl, ?_, hy⟩
        rw [inTurn_run_cons, hx]
        exact hb

theorem follow_eq_inTurn (ns : List Notice) : follow settings ns = inTurn (handle settings) ns := by
  induction ns with
  | nil => rfl
  | cons n ns ih => rw [follow, inTurn, ih]

def attempt (settings : RegistrationSettings) (d : Descriptor) : Program Unit :=
  register settings d >>= fun _ => pure ()

theorem registerAll_discard (ds : List Descriptor) :
    (registerAll settings ds >>= fun _ => pure ()) = inTurn (attempt settings) ds := by
  induction ds with
  | nil => rfl
  | cons d ds ih =>
    simp only [registerAll, inTurn, attempt, bind_assoc, pure_bind, ← ih]

theorem attempt_run_eq_none_iff (hf : w.factory = { strict := some options }) :
    ((attempt settings d).run w).1 = none ↔ Poisoned settings options d w := by
  rw [attempt, discard_run, Option.map_eq_none_iff, register_run_eq_none_iff hf]

theorem handle_run_eq_none_iff {n : Notice} (hf : w.factory = { strict := some options }) :
    ((handle settings n).run w).1 = none ↔
      ∃ d, (n = .listed d ∨ n = .applied d) ∧ Poisoned settings options d w := by
  have hattempt (d : Descriptor) : (((register settings d >>= fun _ => pure ()) : Program Unit).run
      w).1 = none ↔ Poisoned settings options d w := attempt_run_eq_none_iff hf
  cases n with
  | listed d => simpa [handle] using hattempt d
  | applied d => simpa [handle] using hattempt d
  | deleted d => simp [handle, unregister, Program.act, Program.run, Program.runBy]
  | _ => simp [handle, Program.run]

theorem attempts_run (ds : List Descriptor) (w : World) :
    (inTurn (attempt settings) ds).run w =
      (((registerAll settings ds).run w).1.map fun _ => (),
        ((registerAll settings ds).run w).2) := by
  rw [← registerAll_discard, discard_run]

theorem registerAll_run_eq_none_iff {ds : List Descriptor}
    (hf : w.factory = { strict := some options }) :
    ((registerAll settings ds).run w).1 = none ↔ ∃ before d after n w', ds = before ++ d :: after ∧
      (registerAll settings before).run w = (some n, w') ∧ Poisoned settings options d w' ∧
      ((registerAll settings ds).run w).2.connections = w'.connections := by
  have hfactory {before w' n} (hb : (registerAll settings before).run w = (some n, w')) :
      w'.factory = { strict := some options } := by
    have h := factory_run (registerAll settings before) w
    rw [hb] at h
    exact h.trans hf
  constructor
  · intro h
    -- Where it stops does not depend on the count, so that is left out first.
    have hnone : ((inTurn (attempt settings) ds).run w).1 = none := by
      rw [attempts_run, h]
      rfl
    obtain ⟨before, d, after, w', rfl, hb, hd⟩ := exists_crash_of_inTurn hnone
    have hall := congrArg Prod.snd (inTurn_run_of_crash hb hd after)
    rw [attempts_run, attempt, discard_run] at hall
    rw [attempts_run] at hb
    obtain ⟨hn, hw'⟩ := Prod.mk.inj hb
    obtain ⟨n, hn, _⟩ := Option.map_eq_some_iff.1 hn
    have hrun : (registerAll settings before).run w = (some n, w') := Prod.ext hn hw'
    have hpoisoned := (attempt_run_eq_none_iff (hfactory hrun)).1 hd
    have hcrash := (register_run_eq_none_iff (hfactory hrun)).2 hpoisoned
    refine ⟨before, d, after, n, w', rfl, hrun, hpoisoned, ?_⟩
    exact (congrArg World.connections hall).trans (connections_register_of_crash hcrash)
  · rintro ⟨before, d, after, n, w', rfl, hrun, hpoisoned, _⟩
    have hd := (attempt_run_eq_none_iff (hfactory hrun)).2 hpoisoned
    have hb : (inTurn (attempt settings) before).run w = (some (), w') := by
      rw [attempts_run, hrun]
      rfl
    have hall := congrArg Prod.fst (inTurn_run_of_crash hb hd after)
    rw [attempts_run, hd] at hall
    exact Option.map_eq_none_iff.1 hall

theorem refresh_run_eq_none_iff (hf : w.factory = { strict := some options }) :
    ((refresh settings).run w).1 = none ↔ ∃ before d after n w',
      (w.perform .listClusters).1 = .ok (before ++ d :: after) ∧
      (registerAll settings before).run (w.perform .listClusters).2 = (some n, w') ∧
      Poisoned settings options d w' ∧
      ((refresh settings).run w).2.connections = w'.connections := by
  have hfactory := (factory_perform w .listClusters).trans hf
  cases hlist : (w.perform .listClusters).1 with
  | error e =>
    have hrun : (refresh settings).run w = (some 0, (w.perform .listClusters).2) := by
      simp only [refresh, Program.act_bind, Program.run, Program.runBy_call, hlist,
        Program.runBy_pure]
    simp [hrun]
  | ok ds =>
    have hrun : (refresh settings).run w =
        (registerAll settings ds).run (w.perform .listClusters).2 := by
      simp only [refresh, Program.act_bind, Program.run, Program.runBy_call, hlist]
    rw [hrun]
    simp [registerAll_run_eq_none_iff hfactory]

theorem follow_run_eq_none_iff {ns : List Notice} (hf : w.factory = { strict := some options }) :
    ((follow settings ns).run w).1 = none ↔ ∃ before n after d w', ns = before ++ n :: after ∧
      (n = .listed d ∨ n = .applied d) ∧ (follow settings before).run w = (some (), w') ∧
      Poisoned settings options d w' ∧
      ((follow settings ns).run w).2.connections = w'.connections := by
  have hfactory {before w'} (hb : (follow settings before).run w = (some (), w')) :
      w'.factory = { strict := some options } := by
    have h := factory_run (follow settings before) w
    rw [hb] at h
    exact h.trans hf
  simp only [follow_eq_inTurn] at hfactory ⊢
  constructor
  · intro h
    obtain ⟨before, n, after, w', rfl, hb, hn⟩ := exists_crash_of_inTurn h
    obtain ⟨d, hd, hpoisoned⟩ := (handle_run_eq_none_iff (hfactory hb)).1 hn
    refine ⟨before, n, after, d, w', rfl, hd, hb, hpoisoned, ?_⟩
    have hhandle : ((handle settings n).run w').2 = ((register settings d).run w').2 := by
      rcases hd with rfl | rfl <;> exact congrArg Prod.snd (discard_run _ w')
    have hcrash := (register_run_eq_none_iff (hfactory hb)).2 hpoisoned
    rw [inTurn_run_of_crash hb hn after, hhandle]
    exact connections_register_of_crash hcrash
  · rintro ⟨before, n, after, d, w', rfl, hd, hb, hpoisoned, _⟩
    have hn := (handle_run_eq_none_iff (hfactory hb)).2 ⟨d, hd, hpoisoned⟩
    rw [inTurn_run_of_crash hb hn after]
    exact hn

/--
What crashes, with a factory that builds its clients by the options: to register a poisoned
descriptor, a refresh that comes to one, and a watch that is told of one. Of the descriptors that
come later none is registered.
-/
theorem crash_iff_poisoned (hf : w.factory = { strict := some options }) :
    (∀ d, ((register settings d).run w).1 = none ↔ Poisoned settings options d w) ∧
    (((refresh settings).run w).1 = none ↔ ∃ before d after n w',
      (w.perform .listClusters).1 = .ok (before ++ d :: after) ∧
      (registerAll settings before).run (w.perform .listClusters).2 = (some n, w') ∧
      Poisoned settings options d w' ∧
      ((refresh settings).run w).2.connections = w'.connections) ∧
    ∀ ns, ((follow settings ns).run w).1 = none ↔ ∃ before n after d w',
      ns = before ++ n :: after ∧ (n = .listed d ∨ n = .applied d) ∧
      (follow settings before).run w = (some (), w') ∧ Poisoned settings options d w' ∧
      ((follow settings ns).run w).2.connections = w'.connections :=
  ⟨fun _ => register_run_eq_none_iff hf, refresh_run_eq_none_iff hf,
    fun _ => follow_run_eq_none_iff hf⟩

end

def spoilt : Descriptor :=
  { newcomer with
    metadata := { newcomer.metadata with name := some "east" }
    spec := { newcomer.spec with secretName := "east-token" } }

def spoiltVault : World where
  store := .memory <| MemoryStore.putSecret
    (MemoryStore.putSecret
      (MemoryStore.put (MemoryStore.put {} spoilt) newcomer)
      "members" "east-token" [("token", "first\nsecond")])
    "members" "west-token" [("token", "secret")]
  factory := { strict := some {} }
  clock := { start := ⟨0, 0⟩ }

theorem crash_spoilt : spoiltVault.factory = { strict := some {} } ∧
    Poisoned {} {} spoilt spoiltVault ∧ ∃ before d after n w',
      (spoiltVault.perform .listClusters).1 = .ok (before ++ d :: after) ∧
      (registerAll {} before).run (spoiltVault.perform .listClusters).2 = (some n, w') ∧
      Poisoned {} {} d w' ∧ ((refresh {}).run spoiltVault).2.connections = w'.connections := by
  have hregister : ((register {} spoilt).run spoiltVault).1 = none := by decide +kernel
  have hrefresh : ((refresh {}).run spoiltVault).1 = none := by decide +kernel
  obtain ⟨hone, hall, _⟩ : (∀ d, ((register {} d).run spoiltVault).1 = none ↔
      Poisoned {} {} d spoiltVault) ∧ _ ∧ _ := crash_iff_poisoned rfl
  exact ⟨rfl, (hone spoilt).1 hregister, hall.1 hrefresh⟩

/-- The cluster with the good token could be registered, but it is not. -/
theorem not_registered_spoilt :
    (((register {} newcomer).run spoiltVault).2.connections.find? "west").isSome ∧
    (spoiltVault.perform .listClusters).1 = .ok [spoilt, newcomer] ∧
    ((register {} spoilt).run spoiltVault).1 = none ∧
    ((refresh {}).run spoiltVault).1 = none ∧
    ((refresh {}).run spoiltVault).2.connections.find? "west" = none ∧
    ((follow {} [.listed spoilt, .listed newcomer]).run spoiltVault).1 = none ∧
    ((follow {} [.listed spoilt, .listed newcomer]).run spoiltVault).2.connections.find? "west" =
      none := by
  have hlisted : (spoiltVault.perform .listClusters).1 = .ok [spoilt, newcomer] := rfl
  refine ⟨?_, hlisted, ?_, ?_, ?_, ?_, ?_⟩ <;> decide +kernel

end Registration
end ClusterFleet
