import ClusterFleet.Health.Probe
import ClusterFleet.Proofs.Registration.Outcome

namespace ClusterFleet.Registration

structure SameLine (settings : RegistrationSettings) (d d' : Descriptor) : Prop where
  apiEndpoint : d'.spec.apiEndpoint = d.spec.apiEndpoint
  secretName : d'.spec.secretName = d.spec.secretName
  insecure : "*" ∈ d'.spec.disabledValidations.getD [] ↔ "*" ∈ d.spec.disabledValidations.getD []
  caBundle : d'.spec.caBundle.filter (· ≠ "") = d.spec.caBundle.filter (· ≠ "")
  operatorNamespace :
    (d'.label? Descriptor.namespaceLabel).getD settings.defaultOperatorNamespace =
      (d.label? Descriptor.namespaceLabel).getD settings.defaultOperatorNamespace
  owner : (d'.label? Descriptor.ownerLabel).getD "" = (d.label? Descriptor.ownerLabel).getD ""

inductive Visit where
  | registered (d : Descriptor) (r : Option (Except RegistrationError Unit))
  | unregistered (name : String)
  | cleared

/--
From one cache to another by these visits of one service, the latest of them first. The secrets and
the factory may be different ones each time.
-/
inductive Visits (settings : RegistrationSettings) (start : Table Connection) :
    List Visit → Table Connection → Prop
  | here : Visits settings start [] start
  | registers {log : List Visit} {t : Table Connection} (h : Visits settings start log t)
    (o : Outside) (d : Descriptor) :
    Visits settings start (.registered d ((register settings d).runBy o.handler t).1 :: log)
      ((register settings d).runBy o.handler t).2
  | unregisters {log : List Visit} {t : Table Connection} (h : Visits settings start log t)
    (o : Outside) (name : String) :
    Visits settings start (.unregistered name :: log) ((unregister name).runBy o.handler t).2
  | clears {log : List Visit} {t : Table Connection} (h : Visits settings start log t)
    (o : Outside) :
    Visits settings start (.cleared :: log) ((Program.act .clear).runBy o.handler t).2

/-- The last descriptor to be registered under the name, if nothing has removed it since. -/
def lastRegistered? (name : String) : List Visit → Option Descriptor
  | [] => none
  | .registered d (some (.ok ())) :: log =>
    if d.name = name then some d else lastRegistered? name log
  | .registered _ _ :: log => lastRegistered? name log
  | .unregistered n :: log => if n = name then none else lastRegistered? name log
  | .cleared :: _ => none

def ReadsSecret (as : List Action) : Prop := ∃ ns name, .readSecret ns name ∈ as

def BuildsClient (as : List Action) : Prop := ∃ config, .buildClient config ∈ as

section
variable {settings : RegistrationSettings} {o : Outside} {d d' : Descriptor} {c : Connection}
  {t start : Table Connection} {log : List Visit} {name : String} {e : Option Connection}
  {as : List Action}

theorem Goes.asked (h : Goes settings o d e as (some (.ok c))) :
    (ReadsSecret as ↔ ∀ c ∈ e, ¬Fits settings d c) ∧
      (BuildsClient as ↔ ∀ c ∈ e, ¬Fits settings d c) := by
  cases h with
  | kept hc => simp [ReadsSecret, BuildsClient, hc]
  | opened he =>
    exact ⟨iff_of_true ⟨_, _, by simp; exact ⟨rfl, rfl⟩⟩ he, iff_of_true ⟨_, by simp; rfl⟩ he⟩

theorem Fits.iff_sameLine (h : Fits settings d c) :
    Fits settings d' c ↔ SameLine settings d d' := by
  constructor
  · intro h'
    exact ⟨h'.apiEndpoint.symm.trans h.apiEndpoint, h'.secretName.symm.trans h.secretName,
      h'.insecure.symm.trans h.insecure, h'.caData.symm.trans h.caData,
      h'.operatorNamespace.symm.trans h.operatorNamespace, h'.owner.symm.trans h.owner⟩
  · intro hs
    exact ⟨h.apiEndpoint.trans hs.apiEndpoint.symm, h.secretName.trans hs.secretName.symm,
      h.insecure.trans hs.insecure.symm, h.caData.trans hs.caBundle.symm,
      h.operatorNamespace.trans hs.operatorNamespace.symm, h.owner.trans hs.owner.symm⟩

theorem sameLine_of_spec_labels (hspec : d'.spec = d.spec)
    (hlabels : d'.metadata.labels = d.metadata.labels) : SameLine settings d d' := by
  have hlabel (key : String) : d'.label? key = d.label? key := by
    rw [Descriptor.label?, hlabels]
    rfl
  constructor <;> simp [hspec, hlabel]

theorem Visits.filed (hf : Filed start) (h : Visits settings start log t) : Filed t := by
  induction h with
  | here => exact hf
  | registers _ o d ih => exact filed_runBy ih (register settings d)
  | unregisters _ o name ih => exact filed_runBy ih (unregister name)
  | clears _ o ih => exact filed_runBy ih (Program.act .clear)

/-- What is cached under a name fits the last descriptor that was registered under it. -/
theorem Visits.fits (hf : Filed start) (h : Visits settings start log t)
    (hd : lastRegistered? name log = some d) : ∃ c, t.find? name = some c ∧ Fits settings d c := by
  induction h with
  | here => cases hd
  | @registers log t h o d' ih =>
    have hn : ∀ c ∈ t.find? d'.name, c.name = d'.name := fun c hc => (h.filed hf).find? hc
    obtain ⟨r, hg, hrun⟩ := goes_register settings o d' t
    rw [hrun] at hd ⊢
    rcases r with _ | x | c
    · exact ih hd
    · exact ih hd
    · change (if d'.name = name then some d' else lastRegistered? name log) = some d at hd
      split at hd
      · next hname =>
        cases hd
        exact ⟨c, hname ▸ hg.name hn ▸ Table.find?_insert_self _ c t, hg.fits⟩
      · next hne =>
        obtain ⟨c', hc', hfit⟩ := ih hd
        -- A success under another name leaves this one alone.
        have hother : name ≠ c.name := fun he => hne ((hg.name hn).symm.trans he.symm)
        exact ⟨c', (Table.find?_insert_of_ne hother c t).trans hc', hfit⟩
  | @unregisters log t h o n ih =>
    simp only [lastRegistered?] at hd
    split at hd
    · cases hd
    · next hne =>
      obtain ⟨c', hc', hfit⟩ := ih hd
      exact ⟨c', (Table.find?_erase_of_ne (Ne.symm hne) t).trans hc', hfit⟩
  | clears => cases hd

end

/--
After any visits that leave a descriptor registered under a name: another one that asks for the same
connection is registered without secret or factory, and only brings its status along; a success of
any other one has asked both.
-/
theorem renewal_of_visits {settings : RegistrationSettings} {start t : Table Connection}
    {log : List Visit} {name : String} {d : Descriptor} (hf : Filed start)
    (h : Visits settings start log t) (hd : lastRegistered? name log = some d) :
    ∃ c, t.find? name = some c ∧ ∀ (o : Outside) (d' : Descriptor), d'.name = name →
      (SameLine settings d d' →
        (register settings d').runBy o.handler t =
            (some (.ok ()), t.insert name { c with status := d'.status.getD .empty }) ∧
          o.actions (register settings d') t =
            [.lookUp name, .insert { c with status := d'.status.getD .empty }]) ∧
      (((register settings d').runBy o.handler t).1 = some (.ok ()) →
        (ReadsSecret (o.actions (register settings d') t) ↔ ¬SameLine settings d d') ∧
          (BuildsClient (o.actions (register settings d') t) ↔ ¬SameLine settings d d')) ∧
      (d'.spec = d.spec → d'.metadata.labels = d.metadata.labels →
        ¬ReadsSecret (o.actions (register settings d') t) ∧
          ¬BuildsClient (o.actions (register settings d') t)) := by
  obtain ⟨c, hc, hfit⟩ := h.fits hf hd
  refine ⟨c, hc, fun o d' hname => ?_⟩
  subst hname
  have hn : c.name = d'.name := (h.filed hf).find? hc
  have hkept (hs : SameLine settings d d') := (Goes.kept (o := o) (hfit.iff_sameLine.2 hs)).run hc
  refine ⟨fun hs => ?_, fun hok => ?_, fun hspec hlabels => ?_⟩
  · obtain ⟨has, hrun⟩ := hkept hs
    exact ⟨hrun.trans (congrArg (fun n => (_, t.insert n _)) hn), has⟩
  · obtain ⟨c', hg, _⟩ := goes_of_ok hok
    have hnew : (∀ c ∈ t.find? d'.name, ¬Fits settings d' c) ↔ ¬SameLine settings d d' := by
      simp [hc, hfit.iff_sameLine]
    exact ⟨hg.asked.1.trans hnew, hg.asked.2.trans hnew⟩
  · obtain ⟨has, _⟩ := hkept (sameLine_of_spec_labels hspec hlabels)
    simp [has, ReadsSecret, BuildsClient]

def granting : Outside where
  secret _ _ := .ok (some [("token", " secret ")])
  build config := .built (ClientFactory.direct config)

def revoked : Outside where
  secret _ _ := .ok none
  build _ := .refused (.invalidConfig "bad tls")

/-- The newcomer is registered, and found offline; registering it again takes note of that. -/
theorem renewal_of_newcomer : ∃ log t, Visits {} [] log t ∧
    lastRegistered? "west" log = some newcomer ∧
    revoked.actions (register {} (newcomer.withStatus ⟨[Health.offline]⟩)) t =
      [.lookUp "west", .insert { connection {} newcomer (restConfig newcomer "secret")
        newcomerClient with status := ⟨[Health.offline]⟩ }] := by
  have hrun : (register {} newcomer).runBy granting.handler [] =
      (some (.ok ()), newcomerCache) := rfl
  have h : Visits {} [] _ _ := Visits.here.registers granting newcomer
  rw [hrun] at h
  have hlast : lastRegistered? "west" [.registered newcomer (some (.ok ()))] = some newcomer := rfl
  obtain ⟨c, hc, hall⟩ := renewal_of_visits filed_nil h hlast
  obtain ⟨hkept, _, _⟩ := hall revoked (newcomer.withStatus ⟨[Health.offline]⟩) rfl
  cases hc
  exact ⟨_, _, h, hlast, (hkept (sameLine_of_spec_labels rfl rfl)).2⟩

end ClusterFleet.Registration
