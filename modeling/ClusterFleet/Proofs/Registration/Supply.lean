import ClusterFleet.Proofs.Registration.Outcome
import ClusterFleet.Proofs.Store.Secrets

namespace ClusterFleet
open MemoryStore (stocked secret_stocked Answers answers ReadsOwn readsOwn_iff KeptApart
  keptApart_iff forall_readsOwn_iff)

def Descriptor.secretId (d : Descriptor) : SecretId := ⟨d.secretNamespace, d.spec.secretName⟩

namespace Registration

def supplied (puts : List SecretPut) (build : RestConfig → BuildOutcome) : Outside where
  secret ns name := .ok ((stocked puts).secret ns name)
  build := build

/-- The token that the descriptor obtains is the one of this put. -/
structure Obtains (settings : RegistrationSettings) (puts : List SecretPut) (d : Descriptor)
    (p : SecretPut) (token : String) : Prop where
  named : d.spec.secretName ≠ ""
  latest : lastPut? d.secretId.Meets puts = some p
  token : token? settings.tokenKey p.data = some token

def lookedUp (settings : RegistrationSettings) (puts : List SecretPut) (d : Descriptor) :
    Except RegistrationError RestConfig :=
  if d.spec.secretName = "" then .error (.credentials d.name .noSecretRef)
  else fromSecret settings d ((lastPut? d.secretId.Meets puts).map (·.data))

/-- What the credentials of a descriptor come to, and when they come from another namespace. -/
structure Resolves (settings : RegistrationSettings) (puts : List SecretPut) (d : Descriptor)
    (r : Except RegistrationError RestConfig) : Prop where
  ok_iff (config : RestConfig) : r = .ok config ↔
    ∃ p token, Obtains settings puts d p token ∧ config = restConfig d token
  absent_iff :
    r = .error (.credentials d.name (.noSecret d.secretNamespace d.spec.secretName)) ↔
      d.spec.secretName ≠ "" ∧ ∀ p ∈ puts, ¬d.secretId.Meets p.id
  foreign_iff (p : SecretPut) (token : String) : Obtains settings puts d p token →
    (p.id.ns ≠ d.secretNamespace ↔ d.secretId.Overlaps p.id)

/-- Whatever is put, the descriptor obtains no token from another namespace. -/
def OwnOnly (settings : RegistrationSettings) (d : Descriptor) : Prop :=
  ∀ puts p token, Obtains settings puts d p token → p.id.ns = d.secretNamespace

/--
A service that starts with nothing in its cache and nothing in its store of secrets: what has been
put so far, which descriptors it has been given, the latest ones first, and its cache. The factory
may be another one each time.
-/
inductive History (settings : RegistrationSettings) :
    List SecretPut → List Descriptor → Table Connection → Prop
  | new : History settings [] [] []
  | puts {puts : List SecretPut} {ds : List Descriptor} {t : Table Connection}
    (h : History settings puts ds t) (p : SecretPut) : History settings (puts ++ [p]) ds t
  | registers {puts : List SecretPut} {ds : List Descriptor} {t : Table Connection}
    (h : History settings puts ds t) (d : Descriptor) (build : RestConfig → BuildOutcome) :
    History settings puts (d :: ds)
      ((register settings d).runBy (supplied puts build).handler t).2
  | unregisters {puts : List SecretPut} {ds : List Descriptor} {t : Table Connection}
    (h : History settings puts ds t) (name : String) (build : RestConfig → BuildOutcome) :
    History settings puts ds ((unregister name).runBy (supplied puts build).handler t).2
  | refreshes {puts : List SecretPut} {ds : List Descriptor} {t : Table Connection}
    (h : History settings puts ds t) (listed : List Descriptor)
    (build : RestConfig → BuildOutcome) :
    History settings puts (listed ++ ds)
      ((refresh settings).runBy { supplied puts build with listed := .ok listed }.handler t).2

/-- The connection was opened for the descriptor, with the token that it obtained at the time. -/
structure Traced (settings : RegistrationSettings) (puts : List SecretPut) (d : Descriptor)
    (c : Connection) : Prop where
  name : c.name = d.name
  secretName : c.secretName = d.spec.secretName
  token : ∃ earlier p, earlier <+: puts ∧ Obtains settings earlier d p c.restConfig.bearerToken

def AllTraced (settings : RegistrationSettings) (puts : List SecretPut) (ds : List Descriptor)
    (t : Table Connection) : Prop :=
  ∀ e ∈ t, ∃ d ∈ ds, d.name = e.1 ∧ Traced settings puts d e.2

section
variable {settings : RegistrationSettings} {puts puts' : List SecretPut} {d : Descriptor}
  {ds ds' : List Descriptor} {t : Table Connection} {o : Outside} {p : SecretPut} {token : String}
  {build : RestConfig → BuildOutcome}

theorem Obtains.meets (h : Obtains settings puts d p token) : d.secretId.Meets p.id :=
  (of_lastPut? h.latest).2

theorem Obtains.foreign_iff (h : Obtains settings puts d p token) :
    p.id.ns ≠ d.secretNamespace ↔ d.secretId.Overlaps p.id := by
  constructor
  · intro hne
    exact h.meets.resolve_left fun he => hne (congrArg SecretId.ns he).symm
  · intro ho
    exact ho.ns_ne.symm

theorem holds_iff (ho : ∀ ns name, o.secret ns name = .ok ((stocked puts).secret ns name)) :
    Holds settings o d token ↔ ∃ p, Obtains settings puts d p token := by
  have hsecret : o.secret d.secretNamespace d.spec.secretName =
      .ok ((lastPut? d.secretId.Meets puts).map (·.data)) :=
    (ho _ _).trans (congrArg Except.ok (secret_stocked d.secretId puts))
  constructor
  · rintro ⟨hs, data, text, hx, hf, hb, ht⟩
    rw [hsecret, Except.ok.injEq, Option.map_eq_some_iff] at hx
    obtain ⟨p, hp, rfl⟩ := hx
    exact ⟨p, hs, hp, token?_eq_some_iff.2 ⟨text, hf, hb, ht⟩⟩
  · rintro ⟨p, hs, hp, ht⟩
    obtain ⟨text, hf, hb, ht⟩ := token?_eq_some_iff.1 ht
    exact ⟨hs, p.data, text, by rw [hsecret, hp]; rfl, hf, hb, ht⟩

theorem resolve_runBy (settings : RegistrationSettings) (puts : List SecretPut) (d : Descriptor)
    (build : RestConfig → BuildOutcome) (t : Table Connection) :
    (resolve settings d).runBy (supplied puts build).handler t =
      (some (lookedUp settings puts d), t) := by
  by_cases hs : d.spec.secretName = ""
  · simp [resolve, lookedUp, hs]
  · rw [lookedUp, ← secret_stocked]
    simp [resolve, hs, Outside.handler, supplied, Descriptor.secretId]

theorem lookedUp_eq_ok_iff {config : RestConfig} : lookedUp settings puts d = .ok config ↔
    ∃ p token, Obtains settings puts d p token ∧ config = restConfig d token := by
  by_cases hs : d.spec.secretName = ""
  · simp only [lookedUp, if_pos hs, reduceCtorEq, false_iff, not_exists, not_and]
    exact fun p token h => absurd hs h.named
  · rw [lookedUp, if_neg hs, fromSecret_eq_ok_iff]
    constructor
    · rintro ⟨data, token, hl, ht, hconfig⟩
      obtain ⟨p, hp, rfl⟩ := Option.map_eq_some_iff.1 hl
      exact ⟨p, token, ⟨hs, hp, ht⟩, hconfig⟩
    · rintro ⟨p, token, h, hconfig⟩
      exact ⟨p.data, token, congrArg (Option.map _) h.latest, h.token, hconfig⟩

theorem lookedUp_eq_absent_iff :
    lookedUp settings puts d =
        .error (.credentials d.name (.noSecret d.secretNamespace d.spec.secretName)) ↔
      d.spec.secretName ≠ "" ∧ ∀ p ∈ puts, ¬d.secretId.Meets p.id := by
  rw [← lastPut?_eq_none_iff]
  by_cases hs : d.spec.secretName = ""
  · simp [lookedUp, hs]
  · cases hl : lastPut? d.secretId.Meets puts with
    | none => simp [lookedUp, hs, hl, fromSecret]
    | some p =>
      simp only [lookedUp, hs, hl, if_false, Option.map_some, fromSecret]
      cases token? settings.tokenKey p.data <;> simp

theorem resolves (settings : RegistrationSettings) (puts : List SecretPut) (d : Descriptor) :
    Resolves settings puts d (lookedUp settings puts d) where
  ok_iff _ := lookedUp_eq_ok_iff
  absent_iff := lookedUp_eq_absent_iff
  foreign_iff _ _ h := h.foreign_iff

/-- A descriptor may obtain a token from elsewhere just when it names a secret with a slash. -/
theorem ownOnly_iff : OwnOnly settings d ↔ d.spec.secretName = "" ∨ d.secretId.Slashless := by
  constructor
  · intro h
    by_cases hs : d.spec.secretName = ""
    · exact .inl hs
    · refine .inr (SecretId.slashless_iff.2 fun j ho => ?_)
      -- The other secret is put with a token in it, and nothing else is.
      have hm : d.secretId.Meets j := .inr ho
      have hobtains : Obtains settings [⟨j, [(settings.tokenKey, "x")]⟩] d
          ⟨j, [(settings.tokenKey, "x")]⟩ "x" := by
        refine ⟨hs, by simp [lastPut?, hm], token?_eq_some_iff.2 ⟨"x", ?_, ?_, ?_⟩⟩
        · simp [Table.find?]
        · exact ⟨'x', by decide, by decide⟩
        · decide
      exact ho.ns_ne (h _ _ _ hobtains).symm
  · rintro (hs | hs) puts p token h
    · exact absurd hs h.named
    · exact (congrArg SecretId.ns (hs.eq_of_meets h.meets)).symm

theorem Obtains.traced (h : Obtains settings puts d p token) (client : Client) :
    Traced settings puts d (connection settings d (restConfig d token) client) :=
  ⟨rfl, rfl, puts, p, List.prefix_rfl, h⟩

theorem AllTraced.mono (h : AllTraced settings puts ds t) (hp : puts <+: puts')
    (hds : ∀ d ∈ ds, d ∈ ds') : AllTraced settings puts' ds' t := by
  intro e he
  obtain ⟨d, hd, hn, htraced⟩ := h e he
  obtain ⟨earlier, p, hprefix, ho⟩ := htraced.token
  exact ⟨d, hds d hd, hn, htraced.name, htraced.secretName, earlier, p, hprefix.trans hp, ho⟩

theorem AllTraced.insert (h : AllTraced settings puts ds t) {c : Connection} (hd : d ∈ ds)
    (hc : Traced settings puts d c) : AllTraced settings puts ds (t.insert c.name c) := by
  intro e he
  rcases Table.mem_insert he with rfl | he
  · exact ⟨d, hd, hc.name.symm, hc⟩
  · exact h e he

theorem AllTraced.registers (h : AllTraced settings puts ds t)
    (ho : ∀ ns name, o.secret ns name = .ok ((stocked puts).secret ns name)) (d : Descriptor) :
    AllTraced settings puts (d :: ds) ((register settings d).runBy o.handler t).2 := by
  have hmono : AllTraced settings puts (d :: ds) t :=
    h.mono List.prefix_rfl fun _ => List.mem_cons_of_mem d
  obtain ⟨r, hg, hrun⟩ := goes_register settings o d t
  rw [hrun]
  rcases r with _ | x | c
  · exact hmono
  · exact hmono
  · rcases hg.kept_or_opened with ⟨c', hc', rfl⟩ | ⟨token, client, ht, rfl⟩
    · obtain ⟨d', hd', -, htraced⟩ := h _ (Table.mem_of_find? hc')
      exact hmono.insert (List.mem_cons_of_mem d hd') ⟨htraced.1, htraced.2, htraced.3⟩
    · obtain ⟨p, hp⟩ := (holds_iff ho).1 ht
      exact hmono.insert List.mem_cons_self (hp.traced client)

theorem allTraced_of_history (h : History settings puts ds t) : AllTraced settings puts ds t := by
  induction h with
  | new => exact fun e he => absurd he List.not_mem_nil
  | puts _ p ih => exact ih.mono (List.prefix_append _ _) fun _ => id
  | registers _ d build ih => exact ih.registers (fun _ _ => rfl) d
  | unregisters _ name build ih => exact fun e he => ih e (List.mem_filter.1 he).1
  | @refreshes _ ds _ _ listed build ih =>
    refine registerAll_keeps (fun d hd t ht => ?_)
      (ih.mono List.prefix_rfl fun _ => List.mem_append_right listed)
    have hknown : ∀ d' ∈ d :: (listed ++ ds), d' ∈ listed ++ ds :=
      List.forall_mem_cons.2 ⟨List.mem_append_left _ hd, fun _ => id⟩
    exact (ht.registers (fun _ _ => rfl) d).mono List.prefix_rfl hknown

end

/--
Secrets in memory, after any history. What is read as a secret is what was last put as this one or
as one that overlaps with it. Whatever is put, it is the secret's own just when there is no slash in
it; and so are all of a class, with no others put, just when none of them runs into another. With it
goes the token: a descriptor obtains it from another namespace just when the put that it comes from
overlaps, and a cached connection has the one that a descriptor of its name and secret has obtained.
-/
theorem supply_of_history {settings : RegistrationSettings} {puts : List SecretPut}
    {ds : List Descriptor} {t : Table Connection} (h : History settings puts ds t) :
    (∀ i, Answers puts i) ∧
      (∀ S, KeptApart S ↔ ∀ i j, S i → S j → ¬i.RunsInto j) ∧
      (∀ i, (∀ puts', ReadsOwn i puts') ↔ i.Slashless) ∧
      (∀ d build, ∃ r, (resolve settings d).runBy (supplied puts build).handler t = (some r, t) ∧
        Resolves settings puts d r) ∧
      (∀ d, OwnOnly settings d ↔ d.spec.secretName = "" ∨ d.secretId.Slashless) ∧
      ∀ name c, t.find? name = some c → ∃ d ∈ ds, d.name = name ∧ Traced settings puts d c :=
  ⟨answers puts, fun _ => keptApart_iff, fun _ => forall_readsOwn_iff,
    fun d build => ⟨_, resolve_runBy settings puts d build t, resolves settings puts d⟩,
    fun _ => ownOnly_iff,
    fun _ _ hc => allTraced_of_history h _ (Table.mem_of_find? hc)⟩

def borrower : Descriptor where
  metadata := ⟨some "west", none, some "members", none, []⟩
  spec := ⟨"https://west.example", none, "west/token", none⟩
  status := none

def lent : SecretPut := ⟨⟨"members/west", "token"⟩, [("token", "secret")]⟩

def lentCache : Table Connection :=
  let config := restConfig borrower "secret"
  [("west", connection {} borrower config (ClientFactory.direct config))]

theorem history_lent : History {} [lent] [borrower] lentCache :=
  (History.new.puts lent).registers borrower fun config => .built (ClientFactory.direct config)

theorem supply_of_lent : History {} [lent] [borrower] lentCache ∧
    ∃ d c, lentCache.find? "west" = some c ∧ d.name = "west" ∧ Traced {} [lent] d c ∧
      c.restConfig.bearerToken = "secret" := by
  obtain ⟨_, _, _, _, _, htraced⟩ := supply_of_history history_lent
  obtain ⟨d, _, hn, hd⟩ := htraced "west" _ rfl
  exact ⟨history_lent, d, _, rfl, hn, hd, rfl⟩

/-- What was put into another namespace is read as a secret that nobody has put, and its token is
obtained. -/
theorem not_own_lent :
    (stocked [lent]).secret "members" "west/token" = some [("token", "secret")] ∧
      lastPut? (· = ⟨"members", "west/token"⟩) [lent] = none ∧
      ¬ReadsOwn ⟨"members", "west/token"⟩ [lent] ∧
      Obtains {} [lent] borrower lent "secret" ∧ lent.id.ns ≠ borrower.secretNamespace := by
  have hread : (stocked [lent]).secret "members" "west/token" = some [("token", "secret")] := rfl
  have hnone : lastPut? (· = ⟨"members", "west/token"⟩) [lent] = none := by decide
  have hown : ¬ReadsOwn ⟨"members", "west/token"⟩ [lent] := by
    rw [ReadsOwn, hread, hnone]
    exact Option.some_ne_none _
  exact ⟨hread, hnone, hown, ⟨by decide, rfl, rfl⟩, by decide⟩

end Registration
end ClusterFleet
