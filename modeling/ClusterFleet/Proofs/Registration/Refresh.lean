import ClusterFleet.Proofs.Registration.Renewal

namespace ClusterFleet.Registration

/-- What comes of the registration of a single descriptor. -/
def alone (settings : RegistrationSettings) (o : Outside) (t : Table Connection) (d : Descriptor) :
    Option (Except RegistrationError Unit) × Table Connection :=
  (register settings d).runBy o.handler t

def afterRefresh (settings : RegistrationSettings) (o : Outside) (t : Table Connection) :
    Option Nat × Table Connection :=
  (refresh settings).runBy o.handler t

def succeeds (settings : RegistrationSettings) (o : Outside) (t : Table Connection)
    (d : Descriptor) : Bool :=
  (alone settings o t d).1.any Except.isOk

/-- Each descriptor has fared as it would have alone. -/
structure Refreshed (settings : RegistrationSettings) (o : Outside) (t : Table Connection)
    (ds : List Descriptor) (out : Option Nat × Table Connection) : Prop where
  count : out.1 = some (ds.countP (succeeds settings o t))
  installed : ∀ d ∈ ds, succeeds settings o t d →
    ∃ c, (alone settings o t d).2.find? d.name = some c ∧ out.2.find? d.name = some c
  kept : ∀ d ∈ ds, succeeds settings o t d = false → out.2.find? d.name = t.find? d.name
  others : ∀ name, name ∉ ds.map (·.name) → out.2.find? name = t.find? name

section
variable {settings : RegistrationSettings} {o : Outside} {d : Descriptor} {ds ds' : List Descriptor}
  {t t₀ : Table Connection} {c : Connection} {e : Option Connection} {as : List Action}
  {r : Option (Except RegistrationError Connection)} {out out' : Option Nat × Table Connection}

theorem Goes.status (h : Goes settings o d e as (some (.ok c))) :
    c.status = d.status.getD .empty := by
  cases h <;> rfl

theorem Goes.again (h : Goes settings o d e as (some (.ok c))) :
    Goes settings o d (some c) [.lookUp d.name, .insert c] (some (.ok c)) := by
  have hk := Goes.kept (o := o) h.fits
  rwa [← h.status] at hk

theorem alone_touches (settings : RegistrationSettings) (o : Outside) (d : Descriptor)
    (hf : Filed t) : Touches d.name t (alone settings o t d) := by
  obtain ⟨r, hg, hrun⟩ := goes_register settings o d t
  rw [alone, hrun]
  exact hg.touches fun c hc => hf.find? hc

theorem Goes.finishes (h : Goes settings o d e as r) (hb : ∀ config, o.build config ≠ .crashed) :
    r ≠ none := by
  cases h with
  | crashed _ _ hx => exact absurd hx (hb _)
  | _ => exact Option.some_ne_none _

theorem alone_finishes (settings : RegistrationSettings) (t : Table Connection) (d : Descriptor)
    (hb : ∀ config, o.build config ≠ .crashed) : (alone settings o t d).1 ≠ none := by
  obtain ⟨r, hg, hrun⟩ := goes_register settings o d t
  rw [alone, hrun]
  exact mt Option.map_eq_none_iff.1 (hg.finishes hb)

/-- All that counts is the entry under the name. -/
theorem alone_local (settings : RegistrationSettings) (o : Outside) (hf : Filed t₀)
    (he : t.find? d.name = t₀.find? d.name) :
    o.actions (register settings d) t = o.actions (register settings d) t₀ ∧
      (alone settings o t d).1 = (alone settings o t₀ d).1 ∧
      (alone settings o t d).2.find? d.name = (alone settings o t₀ d).2.find? d.name := by
  obtain ⟨r, hg, hrun₀⟩ := goes_register settings o d t₀
  obtain ⟨has, hrun⟩ := hg.run he
  rw [alone, alone, hrun, hrun₀]
  refine ⟨has, rfl, ?_⟩
  rcases r with _ | x | c
  · exact he
  · exact he
  · have hn : c.name = d.name := hg.name fun c hc => hf.find? hc
    simp [left, hn, Table.find?_insert_self]

theorem succeeds_iff : succeeds settings o t d ↔ (alone settings o t d).1 = some (.ok ()) := by
  unfold succeeds
  rcases (alone settings o t d).1 with _ | x | _ <;> simp [Except.isOk, Except.toBool]

theorem alone_of_fails (hf : Filed t) (hs : succeeds settings o t d = false) :
    (alone settings o t d).2 = t :=
  (alone_touches settings o d hf).kept (by simp [← succeeds_iff, hs])

theorem registerAll_runBy (settings : RegistrationSettings) (hf₀ : Filed t₀) (hf : Filed t)
    (hb : ∀ d ∈ ds, (alone settings o t₀ d).1 ≠ none) (hnd : (ds.map (·.name)).Nodup)
    (he : ∀ d ∈ ds, t.find? d.name = t₀.find? d.name) :
    ∃ t', (registerAll settings ds).runBy o.handler t =
        (some (ds.countP (succeeds settings o t₀)), t') ∧
      o.actions (registerAll settings ds) t =
        ds.flatMap (fun d => o.actions (register settings d) t₀) ∧
      (∀ d ∈ ds, t'.find? d.name = (alone settings o t₀ d).2.find? d.name) ∧
      ∀ name, name ∉ ds.map (·.name) → t'.find? name = t.find? name := by
  induction ds generalizing t with
  | nil => exact ⟨t, rfl, rfl, fun _ hd => absurd hd List.not_mem_nil, fun _ _ => rfl⟩
  | cons d ds ih =>
    obtain ⟨hd, hnd⟩ := List.nodup_cons.1 hnd
    obtain ⟨hbd, hb⟩ := List.forall_mem_cons.1 hb
    obtain ⟨has, hr, hfind⟩ :=
      alone_local settings o hf₀ (he d List.mem_cons_self)
    obtain ⟨v, hv⟩ : ∃ v, (register settings d).runBy o.handler t =
        (some v, (alone settings o t d).2) := by
      obtain ⟨v, hv⟩ := Option.ne_none_iff_exists'.1 (hr ▸ hbd)
      exact ⟨v, Prod.ext hv rfl⟩
    have hother := (alone_touches settings o d hf).others
    have hf' : Filed (alone settings o t d).2 := filed_runBy hf (register settings d)
    -- The names are distinct, so that the others still find what there was at the start.
    obtain ⟨t', hrun, hacts, hin, hout⟩ := ih hf' hb hnd fun d' hd' => by
      have hne : d'.name ≠ d.name := fun h => hd (List.mem_map.2 ⟨d', hd', h⟩)
      exact (hother _ hne).trans (he d' (List.mem_cons_of_mem _ hd'))
    have hv₀ : succeeds settings o t₀ d = v.isOk := by rw [succeeds, ← hr, alone, hv]; rfl
    have hbind : (registerAll settings (d :: ds)) = register settings d >>= fun r =>
      registerAll settings ds >>= fun n => pure (if r.isOk then n + 1 else n) := rfl
    refine ⟨t', ?_, ?_, ?_, ?_⟩
    · simp only [hbind, Program.runBy_bind, hv, hrun, Program.runBy_pure, List.countP_cons, hv₀]
      split <;> rfl
    · rw [Outside.actions, hbind, Program.transcript_bind, hv]
      simp only [Program.transcript_bind, hrun, Program.transcript_pure, List.append_nil,
        List.map_append, List.flatMap_cons]
      exact congrArg₂ _ has hacts
    · rintro d' (_ | ⟨_, hd'⟩)
      · exact (hout _ hd).trans hfind
      · exact hin d' hd'
    · intro name hname
      obtain ⟨hne, hname⟩ : name ≠ d.name ∧ name ∉ ds.map (·.name) := by
        simpa [List.map_cons, List.mem_cons, not_or] using hname
      exact (hout name hname).trans (hother name hne)

theorem registerAll_refreshed (settings : RegistrationSettings) (hf : Filed t)
    (hb : ∀ d ∈ ds, (alone settings o t d).1 ≠ none) (hnd : (ds.map (·.name)).Nodup) :
    Refreshed settings o t ds ((registerAll settings ds).runBy o.handler t) := by
  obtain ⟨t', hrun, _, hin, hout⟩ := registerAll_runBy settings hf hf hb hnd fun _ _ => rfl
  rw [hrun]
  refine ⟨rfl, fun d hd hs => ?_, fun d hd hs => ?_, hout⟩
  · have hp := (alone_touches settings o d hf).present (succeeds_iff.1 hs)
    obtain ⟨c, hc⟩ := Option.isSome_iff_exists.1 hp
    exact ⟨c, hc, (hin d hd).trans hc⟩
  · exact (hin d hd).trans (congrArg (Table.find? d.name) (alone_of_fails hf hs))

theorem afterRefresh_goes (settings : RegistrationSettings) (hf : Filed t) (hl : o.listed = .ok ds)
    (hnd : (ds.map (·.name)).Nodup) (hb : ∀ config, o.build config ≠ .crashed) :
    Refreshed settings o t ds (afterRefresh settings o t) ∧
      o.actions (refresh settings) t =
        .listClusters :: ds.flatMap (fun d => o.actions (register settings d) t) := by
  have hb : ∀ d ∈ ds, (alone settings o t d).1 ≠ none := fun d _ => alone_finishes settings t d hb
  obtain ⟨t', _, has, _⟩ := registerAll_runBy settings hf hf hb hnd fun _ _ => rfl
  have hafter : afterRefresh settings o t = (registerAll settings ds).runBy o.handler t := by
    rw [afterRefresh, refresh, Program.act_bind, Program.runBy_call]
    simp only [Outside.handler, hl]
  refine ⟨hafter ▸ registerAll_refreshed settings hf hb hnd, ?_⟩
  rw [← has, Outside.actions, refresh, Program.act_bind, Program.transcript_call]
  simp only [Outside.handler, hl]
  rfl

theorem Refreshed.find? (h : Refreshed settings o t ds out) (hf : Filed t) (hd : d ∈ ds) :
    out.2.find? d.name = (alone settings o t d).2.find? d.name := by
  cases hs : succeeds settings o t d with
  | true =>
    obtain ⟨c, hc, hfind⟩ := h.installed d hd hs
    exact hfind.trans hc.symm
  | false =>
    rw [alone_of_fails hf hs]
    exact h.kept d hd hs

theorem Refreshed.of_perm (h : Refreshed settings o t ds out) (h' : Refreshed settings o t ds' out')
    (hf : Filed t) (hp : ds'.Perm ds) :
    out'.1 = out.1 ∧ ∀ name, out'.2.find? name = out.2.find? name := by
  refine ⟨h'.count.trans ((congrArg some (hp.countP_eq _)).trans h.count.symm), fun name => ?_⟩
  by_cases hn : name ∈ ds.map (·.name)
  · obtain ⟨d, hd, rfl⟩ := List.mem_map.1 hn
    exact (h'.find? hf (hp.mem_iff.2 hd)).trans (h.find? hf hd).symm
  · have hn' : name ∉ ds'.map (·.name) := mt (hp.map _).mem_iff.1 hn
    exact (h'.others name hn').trans (h.others name hn).symm

theorem registerAll_crashes (settings : RegistrationSettings) (hf₀ : Filed t₀) (hf : Filed t)
    (hx : ∃ d ∈ ds, (alone settings o t₀ d).1 = none) (hnd : (ds.map (·.name)).Nodup)
    (he : ∀ d ∈ ds, t.find? d.name = t₀.find? d.name) :
    ((registerAll settings ds).runBy o.handler t).1 = none := by
  induction ds generalizing t with
  | nil =>
    obtain ⟨d, hd, _⟩ := hx
    cases hd
  | cons d ds ih =>
    obtain ⟨hd, hnd⟩ := List.nodup_cons.1 hnd
    obtain ⟨_, hr, _⟩ := alone_local settings o hf₀ (he d List.mem_cons_self)
    have hbind : (registerAll settings (d :: ds)) = register settings d >>= fun r =>
      registerAll settings ds >>= fun n => pure (if r.isOk then n + 1 else n) := rfl
    rw [hbind, Program.runBy_bind]
    cases hv : (register settings d).runBy o.handler t with
    | mk v t' =>
      have halone : alone settings o t d = (v, t') := hv
      cases v with
      | none => rfl
      | some v =>
        have hother := (alone_touches settings o d hf).others
        have hf' : Filed t' := by
          have hrun := filed_runBy (o := o) hf (register settings d)
          rwa [hv] at hrun
        have hx' : ∃ d ∈ ds, (alone settings o t₀ d).1 = none := by
          -- This one got through, so that it is not the one that crashes.
          obtain ⟨d', hd', hx⟩ := hx
          rcases List.mem_cons.1 hd' with rfl | hd'
          · rw [← hr, halone] at hx
            cases hx
          · exact ⟨d', hd', hx⟩
        have hrest := ih hf' hx' hnd fun d' hd' => by
          have hne : d'.name ≠ d.name := fun h => hd (List.mem_map.2 ⟨d', hd', h⟩)
          have hkept := hother _ hne
          rw [halone] at hkept
          exact hkept.trans (he d' (List.mem_cons_of_mem _ hd'))
        simp only [Program.runBy_bind]
        cases hall : (registerAll settings ds).runBy o.handler t' with
        | mk n t'' =>
          rw [hall] at hrest
          cases hrest
          rfl

/-- Descriptors may be registered in any order. If some of them crash, no order gets through. -/
theorem registerAll_perm (settings : RegistrationSettings) (hf : Filed t)
    (hnd : (ds.map (·.name)).Nodup) (hp : ds'.Perm ds) :
    ((registerAll settings ds').runBy o.handler t).1 =
        ((registerAll settings ds).runBy o.handler t).1 ∧
      (((registerAll settings ds).runBy o.handler t).1 ≠ none → ∀ name,
        ((registerAll settings ds').runBy o.handler t).2.find? name =
          ((registerAll settings ds).runBy o.handler t).2.find? name) := by
  have hnd' : (ds'.map (·.name)).Nodup := (hp.map _).nodup_iff.2 hnd
  by_cases hx : ∃ d ∈ ds, (alone settings o t d).1 = none
  · have hx' : ∃ d ∈ ds', (alone settings o t d).1 = none := by
      simpa only [hp.mem_iff] using hx
    have hnone := registerAll_crashes settings hf hf hx hnd fun _ _ => rfl
    have hnone' := registerAll_crashes settings hf hf hx' hnd' fun _ _ => rfl
    exact ⟨hnone'.trans hnone.symm, fun h => absurd hnone h⟩
  · have hb : ∀ d ∈ ds, (alone settings o t d).1 ≠ none := fun d hd h => hx ⟨d, hd, h⟩
    have hb' : ∀ d ∈ ds', (alone settings o t d).1 ≠ none := fun d hd => hb d (hp.mem_iff.1 hd)
    obtain ⟨hcount, hfind⟩ := (registerAll_refreshed settings hf hb hnd).of_perm
      (registerAll_refreshed settings hf hb' hnd') hf hp
    exact ⟨hcount, fun _ => hfind⟩

theorem Goes.relist (h : Goes settings o d e as r)
    (listed : Except StoreError (List Descriptor)) : Goes settings { o with listed } d e as r := by
  have hholds {token : String} (ht : Holds settings o d token) :
      Holds settings { o with listed } d token := ⟨ht.1, ht.2⟩
  cases h with
  | kept hc => exact .kept hc
  | unnamed he hs => exact .unnamed he hs
  | unread he hs hx => exact .unread he hs hx
  | absent he hs hx => exact .absent he hs hx
  | tokenless he hs hx ht => exact .tokenless he hs hx ht
  | refused he ht hx => exact .refused he (hholds ht) hx
  | crashed he ht hx => exact .crashed he (hholds ht) hx
  | opened he ht hx => exact .opened he (hholds ht) hx

theorem alone_relist (listed : Except StoreError (List Descriptor)) :
    alone settings { o with listed } t d = alone settings o t d := by
  obtain ⟨r, hg, hrun⟩ := goes_register settings o d t
  exact ((hg.relist listed).run rfl).2.trans hrun.symm

theorem Refreshed.relist {listed : Except StoreError (List Descriptor)}
    (h : Refreshed settings { o with listed } t ds out) : Refreshed settings o t ds out := by
  have hs : succeeds settings { o with listed } t = succeeds settings o t := by
    funext d
    rw [succeeds, alone_relist]
    rfl
  refine ⟨hs ▸ h.count, fun d hd hok => ?_, fun d hd hno => h.kept d hd (hs ▸ hno), h.others⟩
  have hin := h.installed d hd (hs ▸ hok)
  rwa [alone_relist] at hin

theorem alone_again (settings : RegistrationSettings) (o : Outside) (hf : Filed t₀)
    (he : t.find? d.name = (alone settings o t₀ d).2.find? d.name) :
    succeeds settings o t d = succeeds settings o t₀ d ∧
      (alone settings o t d).2.find? d.name = t.find? d.name ∧
      (succeeds settings o t₀ d → ¬BuildsClient (o.actions (register settings d) t)) := by
  cases hs : succeeds settings o t₀ d with
  | false =>
    have hsame := alone_of_fails hf hs
    rw [hsame] at he
    obtain ⟨_, hr, hfind⟩ := alone_local settings o hf he
    rw [hsame] at hfind
    exact ⟨by rw [succeeds, hr]; exact hs, hfind.trans he.symm, nofun⟩
  | true =>
    obtain ⟨c, hg, hrun₀⟩ := goes_of_ok (succeeds_iff.1 hs)
    have hn : c.name = d.name := hg.name fun c hc => hf.find? hc
    have hc : t.find? d.name = some c := by
      rw [he, alone, hrun₀, ← hn]
      exact Table.find?_insert_self _ c t₀
    obtain ⟨has, hrun⟩ := hg.again.run hc
    refine ⟨succeeds_iff.2 (congrArg Prod.fst hrun), ?_, fun _ => by simp [has, BuildsClient]⟩
    rw [hc, alone, hrun, ← hn]
    exact Table.find?_insert_self _ c t

end

/--
A refresh on its own, with distinct names in the list. It counts the descriptors that succeed, each
of which gets the entry that it would get alone, and leaves all other entries; the order of the list
makes no difference, and without a list nothing happens. The next refresh leaves all as it is, and
builds clients only for those that have failed.
-/
theorem refresh_of_distinct (settings : RegistrationSettings) {o : Outside}
    {t : Table Connection} {ds : List Descriptor} (hf : Filed t) (hl : o.listed = .ok ds)
    (hnd : (ds.map (·.name)).Nodup) (hb : ∀ config, o.build config ≠ .crashed) :
    Refreshed settings o t ds (afterRefresh settings o t) ∧
      (∀ ds', ds'.Perm ds →
        (afterRefresh settings { o with listed := .ok ds' } t).1 = (afterRefresh settings o t).1 ∧
          ∀ name, (afterRefresh settings { o with listed := .ok ds' } t).2.find? name =
            (afterRefresh settings o t).2.find? name) ∧
      (∀ x, afterRefresh settings { o with listed := .error x } t = (some 0, t)) ∧
      (afterRefresh settings o (afterRefresh settings o t).2).1 = (afterRefresh settings o t).1 ∧
      (∀ name, (afterRefresh settings o (afterRefresh settings o t).2).2.find? name =
        (afterRefresh settings o t).2.find? name) ∧
      o.actions (refresh settings) (afterRefresh settings o t).2 = .listClusters ::
        ds.flatMap (fun d => o.actions (register settings d) (afterRefresh settings o t).2) ∧
      ∀ d ∈ ds, succeeds settings o t d →
        ¬BuildsClient (o.actions (register settings d) (afterRefresh settings o t).2) := by
  have hf₁ : Filed (afterRefresh settings o t).2 := filed_runBy hf (refresh settings)
  obtain ⟨hfirst, _⟩ := afterRefresh_goes settings hf hl hnd hb
  obtain ⟨hsecond, hacts⟩ := afterRefresh_goes settings hf₁ hl hnd hb
  have hagain {d : Descriptor} (hd : d ∈ ds) := alone_again settings o hf (hfirst.find? hf hd)
  refine ⟨hfirst, fun ds' hp => ?_, fun x => rfl, ?_, fun name => ?_, hacts,
    fun d hd => (hagain hd).2.2⟩
  · have hnd' : (ds'.map (·.name)).Nodup := (hp.map _).nodup_iff.2 hnd
    obtain ⟨hother, _⟩ :=
      afterRefresh_goes settings (o := { o with listed := .ok ds' }) hf rfl hnd' hb
    exact hfirst.of_perm hother.relist hf hp
  · rw [hsecond.count, hfirst.count]
    exact congrArg some (List.countP_congr fun d hd => by rw [(hagain hd).1])
  · by_cases hn : name ∈ ds.map (·.name)
    · obtain ⟨d, hd, rfl⟩ := List.mem_map.1 hn
      exact (hsecond.find? hf₁ hd).trans (hagain hd).2.1
    · exact hsecond.others name hn

def stranger : Descriptor where
  metadata := ⟨some "east", none, some "members", none, []⟩
  spec := ⟨"https://east.example", none, "east-token", none⟩
  status := none

def members : Outside where
  secret _ name := .ok (if name = "west-token" then some [("token", " secret ")] else none)
  build config := .built (ClientFactory.direct config)
  listed := .ok [stranger, newcomer]

theorem refresh_of_members : members.listed = .ok [stranger, newcomer] ∧
    ([stranger, newcomer].map (·.name)).Nodup ∧ (∀ config, members.build config ≠ .crashed) ∧
    (afterRefresh {} members []).1 = some 1 ∧
    ¬BuildsClient
      (members.actions (register {} newcomer) (afterRefresh {} members []).2) := by
  have hnd : ([stranger, newcomer].map (·.name)).Nodup := by decide
  obtain ⟨hfirst, _, _, _, _, _, hbuilds⟩ :=
    refresh_of_distinct {} (o := members) filed_nil rfl hnd nofun
  exact ⟨rfl, hnd, nofun, hfirst.count, hbuilds newcomer (by simp) rfl⟩

end ClusterFleet.Registration
