import ClusterFleet.Proofs.Cluster.Codec
import ClusterFleet.Proofs.Store.Resource
import ClusterFleet.Proofs.Store.Secrets
import ClusterFleet.Proofs.Table
import ClusterFleet.Store.ApiServer

namespace ClusterFleet
open Json

/-- The secret of the descriptor, if it names one, can be asked for. -/
structure Descriptor.IsPlain (d : Descriptor) : Prop where
  secretNamespace : IsObjectName d.secretNamespace
  secretName : d.spec.secretName = "" ∨ IsObjectName d.spec.secretName

structure Descriptor.LivesIn (ns : String) (d : Descriptor) : Prop where
  inNamespace : ∀ n ∈ d.metadata.inNamespace, n = ns
  secretName : d.spec.secretName = "" ∨ IsObjectName d.spec.secretName

theorem Descriptor.LivesIn.isPlain {ns : String} {d : Descriptor} (h : d.LivesIn ns)
    (hns : IsObjectName ns) : d.IsPlain := by
  refine ⟨?_, h.secretName⟩
  rw [Descriptor.secretNamespace]
  cases hd : d.metadata.inNamespace with
  | none => exact (by decide : IsObjectName "default")
  | some n => exact h.inNamespace n hd ▸ hns

/-- What is read of the object under a name at an API server tells of this descriptor. -/
structure Tells (name : String) (d : Descriptor) (j : Json) : Prop where
  named : d.metadata.name = some name
  object : ∃ members, j = .obj members
  reads : ∃ d', Descriptor.ofJson? j.sent = some d' ∧ d'.unversioned = d.unversioned
  plain : d.IsPlain

section
variable {name : String} {d : Descriptor} {j : Json}

theorem Descriptor.status_of_unversioned {d' : Descriptor} (h : d'.unversioned = d.unversioned) :
    d'.status = d.status := by
  have hs : d'.unversioned.status = d.unversioned.status := by rw [h]
  exact hs

theorem Tells.isProper (h : Tells name d j) : ∀ s ∈ d.status, s.IsProper := by
  obtain ⟨members, rfl⟩ := h.object
  obtain ⟨d', hd, hu⟩ := h.reads
  rw [sent_obj] at hd
  rw [← Descriptor.status_of_unversioned hu]
  exact Descriptor.isProper_status hd

theorem sent_withVersion (revision : Nat) (members : List Member) :
    sent (ApiServer.withVersion revision (.obj members)) =
      ApiServer.withVersion revision (sent (.obj members)) := by
  have hfield := field_sent "metadata" (.obj members)
  rw [sent_obj] at hfield ⊢
  simp only [field, field?] at hfield
  simp only [ApiServer.withVersion, hfield, membersOf_sent, sent_obj, sentMembers_setMember]
  rw [show sent (.str (toString revision)) = _ from arrives_str _]

theorem Tells.withVersion (h : Tells name d j) (revision : Nat) :
    Tells name d (ApiServer.withVersion revision j) := by
  obtain ⟨members, rfl⟩ := h.object
  refine ⟨h.named, ⟨_, rfl⟩, ?_, h.plain⟩
  obtain ⟨d', hd, hu⟩ := h.reads
  rw [sent_obj] at hd
  rw [sent_withVersion, sent_obj]
  obtain ⟨ms, hlast, hm⟩ := Descriptor.exists_metadata hd
  obtain ⟨m', hm', hu'⟩ := Metadata.ofJson?_setMember hm (toString revision)
  have hstamped : ApiServer.withVersion revision (.obj (sentMembers members)) =
      .obj (setMember "metadata" (.obj (setMember Metadata.versionMember
        (.str (toString revision)) ms)) (sentMembers members)) := by
    simp only [ApiServer.withVersion, hlast]
    rfl
  refine ⟨_, hstamped ▸ Descriptor.ofJson?_setMetadata hd hm', ?_⟩
  rw [← hu]
  exact congrArg (fun m => { d' with metadata := m }) hu'

theorem mergePatch_statusPatch (members : List Member) (s : Status) :
    mergePatch (.obj members) (ApiServer.statusPatch s) = .obj (setMember "status"
      (.obj (setMember "conditions" (Condition.listToJson s.conditions)
        (membersOf ((lastMember "status" members).getD .null)))) members) := by
  simp [ApiServer.statusPatch, Status.toJson, Condition.listToJson, mergePatch, mergeMembers,
    membersOf, isNull]

theorem sent_statusPatch (members : List Member) (s : Status) :
    sent (mergePatch (.obj members) (ApiServer.statusPatch s)) =
      mergePatch (sent (.obj members)) (ApiServer.statusPatch s) := by
  have hfield := field_sent "status" (.obj members)
  have harrives : sent (Condition.listToJson s.conditions) = _ := s.arrives_conditions
  rw [sent_obj] at hfield ⊢
  simp only [field, field?] at hfield
  simp only [mergePatch_statusPatch, hfield, membersOf_sent, sent_obj, sentMembers_setMember,
    harrives]

theorem Tells.patch (h : Tells name d j) {s : Status} (hs : s.IsProper) :
    Tells name (d.withStatus s) (mergePatch j (ApiServer.statusPatch s)) := by
  obtain ⟨members, rfl⟩ := h.object
  refine ⟨h.named, ⟨_, mergePatch_statusPatch members s⟩, ?_,
    ⟨h.plain.secretNamespace, h.plain.secretName⟩⟩
  obtain ⟨d', hd, hu⟩ := h.reads
  rw [sent_obj] at hd
  obtain ⟨r, hr⟩ := Descriptor.exists_statusRecord hd
  have hread := Status.ofJson?_setMember hs hr
  rw [sent_statusPatch, sent_obj, mergePatch_statusPatch]
  exact ⟨_, Descriptor.ofJson?_setStatus hd rfl hread, congrArg (fun d => d.withStatus s) hu⟩

end

namespace ApiServer

/-- Without answers laid out, and watching a namespace that can be written in a path. -/
structure IsPlain (s : ApiServer) : Prop where
  watched : IsObjectName s.watched
  canned : s.canned = []

section
variable {s : ApiServer} {name ns : String}

theorem decode_ofJson {α : Type} (v : Verb) (f : Json → Option α) (j : Json) :
    decode v f (.ok (.ofJson j)) = match f j.sent with
      | some a => .ok a
      | none => .error (@StoreError.malformed v j.compact) := rfl

theorem send_eq (hs : s.IsPlain) {r : Resource} (hr : r.IsPlain) (body : Option Json) :
    ∃ received, s.send r body =
      ((({ s with received } : ApiServer).serve body r).1.map Http.Document.ofJson,
        (({ s with received } : ApiServer).serve body r).2) := by
  refine ⟨⟨r.method, r.path, body⟩ :: s.received, ?_⟩
  rw [send, Resource.request?_of_isPlain hr]
  simp only [answer, Resource.ofRequest?_of_isPlain hr, takeCanned, hs.canned, List.lookup_nil]

theorem isPlain_cluster (hs : s.IsPlain) (hn : IsObjectName name) :
    (Resource.cluster s.watched name).IsPlain :=
  List.forall_mem_cons.2 ⟨hs.watched, List.forall_mem_cons.2 ⟨hn, nofun⟩⟩

theorem isPlain_secret (hns : IsObjectName ns) (hn : IsObjectName name) :
    (Resource.secret ns name).IsPlain :=
  List.forall_mem_cons.2 ⟨hns, List.forall_mem_cons.2 ⟨hn, nofun⟩⟩

theorem isPlain_clusters (hs : s.IsPlain) : (Resource.clusters s.watched).IsPlain :=
  List.forall_mem_cons.2 ⟨hs.watched, nofun⟩

theorem isPlain_clusterStatus (hs : s.IsPlain) (hn : IsObjectName name) :
    (Resource.clusterStatus s.watched name).IsPlain :=
  List.forall_mem_cons.2 ⟨hs.watched, List.forall_mem_cons.2 ⟨hn, nofun⟩⟩

theorem find_eq (hs : s.IsPlain) (hn : IsObjectName name) :
    ∃ received, s.find name = ((match s.cluster? name with
        | none => .ok none
        | some j => match Descriptor.ofJson? j.sent with
          | some d => .ok (some d)
          | none => .error (@StoreError.malformed .get j.compact)), { s with received }) := by
  obtain ⟨received, h⟩ := send_eq hs (isPlain_cluster hs hn) none
  refine ⟨received, ?_⟩
  rw [find, if_neg hn.nonempty, h]
  have hsame : (({ s with received } : ApiServer)).cluster? name = s.cluster? name := rfl
  simp only [serve, cluster?]
  cases hl : lookUp s.watched name s.clusters with
  | none => rfl
  | some j =>
    simp only [Except.map, decode_ofJson]
    cases Descriptor.ofJson? j.sent <;> rfl

theorem secret_eq (hs : s.IsPlain) (hns : IsObjectName ns) (hn : IsObjectName name) :
    ∃ received, s.secret ns name = ((match lookUp ns name s.secrets with
        | none => .ok none
        | some j => match Secret.ofJson? j.sent with
          | some data => .ok (some data)
          | none => .error (@StoreError.malformed .secret j.compact)), { s with received }) := by
  obtain ⟨received, h⟩ := send_eq hs (isPlain_secret hns hn) none
  refine ⟨received, ?_⟩
  rw [secret, if_neg hn.nonempty, h]
  simp only [serve]
  cases hl : lookUp ns name s.secrets with
  | none => rfl
  | some j =>
    simp only [Except.map, decode_ofJson]
    cases Secret.ofJson? j.sent <;> rfl

theorem items?_sent_listObject (s : ApiServer) (ns : String) :
    items? (s.listObject ns).sent =
      (((s.clusters.find? ns).getD []).values.map sent).mapM Descriptor.ofJson? := by
  simp only [listObject, sent, sentMembers, sentItems_eq]
  rfl

theorem list_eq (hs : s.IsPlain) : ∃ received,
    s.list = (decode .list items? (.ok (.ofJson (s.listObject s.watched))),
      { s with received }) := by
  obtain ⟨received, h⟩ := send_eq hs (isPlain_clusters hs) none
  refine ⟨received, ?_⟩
  rw [list, h]
  rfl

theorem lookUp_setObject_self (ns name : String) (j : Json) (objects : Table (Table Json)) :
    lookUp ns name (setObject ns name j objects) = some j := by
  rw [lookUp, setObject, Table.find?_insert_self]
  exact Table.find?_insert_self _ _ _

theorem lookUp_setObject_of_ne {ns ns' name name' : String} (h : ¬(ns' = ns ∧ name' = name))
    (j : Json) (objects : Table (Table Json)) :
    lookUp ns' name' (setObject ns name j objects) = lookUp ns' name' objects := by
  rw [lookUp, setObject, lookUp]
  by_cases hns : ns' = ns
  · subst hns
    have hn : name' ≠ name := fun hn => h ⟨rfl, hn⟩
    rw [Table.find?_insert_self]
    exact Table.find?_insert_of_ne hn j _
  · rw [Table.find?_insert_of_ne hns]

def patched (s : ApiServer) (st : Status) (j : Json) : Json :=
  withVersion (s.revision + 1) (mergePatch j (statusPatch st))

theorem writeStatus_eq_of_none (hs : s.IsPlain) (hn : IsObjectName name) (st : Status)
    (hl : s.cluster? name = none) : ∃ received, s.writeStatus name st =
      (.error (notFound Definition.resourceName name), { s.revise with received }) := by
  obtain ⟨received, h⟩ := send_eq hs (isPlain_clusterStatus hs hn) (some (statusPatch st))
  refine ⟨received, ?_⟩
  rw [writeStatus, if_neg hn.nonempty, h]
  have hl' : lookUp s.watched name s.clusters = none := hl
  simp only [serve, revise, hl']
  rfl

theorem writeStatus_eq_of_some (hs : s.IsPlain) (hn : IsObjectName name) (st : Status) {j : Json}
    (hl : s.cluster? name = some j) : ∃ received, s.writeStatus name st =
      ((decode .patch Descriptor.ofJson? (.ok (.ofJson (s.patched st j)))).map fun _ => (),
        { s.revise with
          received, clusters := setObject s.watched name (s.patched st j) s.clusters }) := by
  obtain ⟨received, h⟩ := send_eq hs (isPlain_clusterStatus hs hn) (some (statusPatch st))
  refine ⟨received, ?_⟩
  rw [writeStatus, if_neg hn.nonempty, h]
  have hl' : lookUp s.watched name s.clusters = some j := hl
  simp only [serve, revise, hl', store, lookUp_setObject_self]
  rfl

theorem metadataText?_sent (key : String) (j : Json) :
    metadataText? key j.sent = metadataText? key j := by
  rw [metadataText?, metadataText?, field_sent, field?_sent]
  cases (j.field "metadata").field? key with
  | none => rfl
  | some v => exact asString?_sent v

/-- The server files an object under the name that the object reads as having. -/
theorem nameOf_obj {members : List Member} {d : Descriptor}
    (h : Descriptor.ofJson? (sent (.obj members)) = some d) :
    nameOf (.obj members) = d.metadata.name.getD "" := by
  rw [nameOf, ← metadataText?_sent]
  rw [sent_obj] at h ⊢
  obtain ⟨ms, hlast, hm⟩ := Descriptor.exists_metadata h
  rw [metadataText?, Metadata.name_ofJson? hm]
  simp only [field, field?, hlast, Option.getD_some]

theorem namespaceOf_obj {members : List Member} {d : Descriptor}
    (h : Descriptor.ofJson? (sent (.obj members)) = some d) :
    s.namespaceOf (.obj members) = d.metadata.inNamespace.getD s.watched := by
  rw [namespaceOf, ← metadataText?_sent]
  rw [sent_obj] at h ⊢
  obtain ⟨ms, hlast, hm⟩ := Descriptor.exists_metadata h
  rw [metadataText?, Metadata.inNamespace_ofJson? hm]
  simp only [field, field?, hlast, Option.getD_some]

end

end ApiServer

theorem secretKey_inj {ns ns' name name' : String} (hns : IsObjectName ns) (hn : IsObjectName name)
    (hk : MemoryStore.secretKey ns name = MemoryStore.secretKey ns' name') :
    ns = ns' ∧ name = name' := by
  have hplain : SecretId.Slashless ⟨ns, name⟩ := ⟨hns.not_mem (by decide), hn.not_mem (by decide)⟩
  have hmeets : SecretId.Meets ⟨ns, name⟩ ⟨ns', name'⟩ := SecretId.key_eq_iff.1 hk
  exact SecretId.mk.inj (hplain.eq_of_meets hmeets)

/-- A secret is in neither store, or it is in both and reads the same. -/
def SameSecret (data : Option SecretData) (j : Option Json) : Prop :=
  (data = none ∧ j = none) ∨
    ∃ data' j', data = some data' ∧ j = some j' ∧ Secret.ofJson? j'.sent = some data'

structure Mirrors (watched : String) (m : MemoryStore) (s : ApiServer) : Prop where
  watched : s.watched = watched
  plain : s.IsPlain
  clusters : Table.Matches Tells m.clusters ((s.clusters.find? s.watched).getD [])
  ordered : m.clusters.Ordered
  secrets : ∀ ns name, IsObjectName ns → IsObjectName name →
    SameSecret (m.secret ns name) (ApiServer.lookUp ns name s.secrets)

namespace Mirrors

variable {watched : String} {m : MemoryStore} {s : ApiServer} {ns name : String}

theorem empty (h : IsObjectName watched) (layout : Layout) :
    Mirrors watched { layout } { watched } where
  watched := rfl
  plain := ⟨h, rfl⟩
  clusters := .nil
  ordered := .nil
  secrets := fun _ _ _ _ => .inl ⟨rfl, rfl⟩

theorem received (h : Mirrors watched m s) (received : List Http.Request) :
    Mirrors watched m { s with received } :=
  ⟨h.watched, ⟨h.plain.watched, h.plain.canned⟩, h.clusters, h.ordered, h.secrets⟩

theorem revise (h : Mirrors watched m s) : Mirrors watched m s.revise :=
  ⟨h.watched, ⟨h.plain.watched, h.plain.canned⟩, h.clusters, h.ordered, h.secrets⟩

theorem find (h : Mirrors watched m s) (hn : IsObjectName name) :
    ∃ o s', s.find name = (.ok o, s') ∧ Mirrors watched m s' ∧
      o.map Descriptor.unversioned = (m.find name).map Descriptor.unversioned ∧
      ∀ d ∈ m.find name, ∀ st ∈ d.status, st.IsProper := by
  obtain ⟨received, he⟩ := ApiServer.find_eq h.plain hn
  rw [he]
  rcases h.clusters.find? name with ⟨hm, hs⟩ | ⟨d, j, hm, hs, ht⟩
  · have hm' : m.find name = none := hm
    have hs' : s.cluster? name = none := hs
    rw [hs', hm']
    exact ⟨none, _, rfl, h.received received, rfl, nofun⟩
  · have hm' : m.find name = some d := hm
    have hs' : s.cluster? name = some j := hs
    obtain ⟨d', hd, hu⟩ := ht.reads
    rw [hs', hm']
    simp only [hd]
    refine ⟨some d', _, rfl, h.received received, congrArg some hu, ?_⟩
    rintro _ ⟨⟩
    exact ht.isProper

theorem secret (h : Mirrors watched m s) (hns : IsObjectName ns) (hn : IsObjectName name) :
    ∃ s', s.secret ns name = (.ok (m.secret ns name), s') ∧ Mirrors watched m s' := by
  obtain ⟨received, he⟩ := ApiServer.secret_eq h.plain hns hn
  rw [he]
  rcases h.secrets ns name hns hn with ⟨hm, hs⟩ | ⟨data, j, hm, hs, hr⟩
  · rw [hm, hs]
    exact ⟨_, rfl, h.received received⟩
  · rw [hm, hs]
    simp only [hr]
    exact ⟨_, rfl, h.received received⟩

theorem exists_mapM {t : Table Descriptor} {u : Table Json} (h : Table.Matches Tells t u) :
    ∃ ds, (u.values.map sent).mapM Descriptor.ofJson? = some ds ∧
      ds.map Descriptor.unversioned = t.values.map Descriptor.unversioned := by
  induction h with
  | nil => exact ⟨[], rfl, rfl⟩
  | @cons k d j t u hk rest ih =>
    obtain ⟨d', hd, hu⟩ := hk.reads
    obtain ⟨ds, hds, hus⟩ := ih
    refine ⟨d' :: ds, ?_, List.cons_eq_cons.2 ⟨hu, hus⟩⟩
    have hvalues : Table.values ((k, j) :: u) = j :: u.values := rfl
    rw [hvalues, List.map_cons, List.mapM_cons, hd, hds]
    rfl

theorem isPlain (h : Mirrors watched m s) {d : Descriptor} (hd : d ∈ m.clusters.values) :
    d.IsPlain := by
  obtain ⟨⟨key, _⟩, hm, rfl⟩ := List.mem_map.1 hd
  obtain ⟨j, ht⟩ := h.clusters.of_mem hm
  exact ht.plain

theorem distinct (h : Mirrors watched m s) : (m.clusters.values.map (·.name)).Nodup := by
  have hnames : m.clusters.values.map (·.name) = m.clusters.keys := by
    rw [Table.values, Table.keys, List.map_map]
    refine List.map_congr_left fun e he => ?_
    obtain ⟨j, ht⟩ := h.clusters.of_mem he
    rw [Function.comp_apply, Descriptor.name, ht.named]
    rfl
  rw [hnames]
  exact h.ordered.nodup

/-- The server lists by name, whatever the order in memory. -/
theorem list (h : Mirrors watched m s) :
    ∃ ds s', s.list = (.ok ds, s') ∧ Mirrors watched m s' ∧
      ds.map Descriptor.unversioned = m.clusters.values.map Descriptor.unversioned := by
  obtain ⟨received, he⟩ := ApiServer.list_eq h.plain
  obtain ⟨ds, hds, hu⟩ := exists_mapM h.clusters
  rw [he]
  simp only [ApiServer.decode_ofJson, ApiServer.items?_sent_listObject, hds]
  exact ⟨ds, _, rfl, h.received received, hu⟩

theorem setObject (h : Mirrors watched m s) {d : Descriptor} {j : Json} (ht : Tells name d j) :
    Mirrors watched { m with clusters := m.clusters.insert name d }
      { s with clusters := ApiServer.setObject s.watched name j s.clusters } where
  watched := h.watched
  plain := ⟨h.plain.watched, h.plain.canned⟩
  clusters := by
    show Table.Matches _ _ ((Table.find? s.watched (ApiServer.setObject _ _ _ _)).getD [])
    rw [ApiServer.setObject, Table.find?_insert_self]
    exact h.clusters.insert ht
  ordered := h.ordered.insert name d
  secrets := h.secrets

theorem put (h : Mirrors watched m s) {members : List Member} {d : Descriptor}
    (hd : Descriptor.ofJson? (sent (.obj members)) = some d) (hn : d.metadata.name = some name)
    (hl : d.LivesIn watched) : Mirrors watched (m.put d) (s.put (.obj members)) := by
  have hns : s.revise.namespaceOf (.obj members) = s.watched := by
    rw [ApiServer.namespaceOf_obj hd]
    cases hd : d.metadata.inNamespace with
    | none => rfl
    | some n => exact (hl.inNamespace n hd).trans h.watched.symm
  have ht : Tells name d (.obj members) := ⟨hn, ⟨_, rfl⟩, ⟨d, hd, rfl⟩,
    hl.isPlain (h.watched ▸ h.plain.watched)⟩
  have hstored := h.revise.setObject (ht.withVersion s.revise.revision)
  have hput : s.put (.obj members) = s.revise.store s.watched name (.obj members) := by
    rw [ApiServer.put, ApiServer.nameOf_obj hd, hn, ← hns]
    rfl
  rw [hput, MemoryStore.put, hn]
  exact ⟨hstored.watched, hstored.plain, hstored.clusters, hstored.ordered, hstored.secrets⟩

theorem remove (h : Mirrors watched m s) (name : String) :
    Mirrors watched (m.remove name) (s.remove name) where
  watched := h.watched
  plain := ⟨h.plain.watched, h.plain.canned⟩
  clusters := by
    show Table.Matches _ _ ((Table.find? s.watched (ApiServer.eraseObject _ _ _)).getD [])
    rw [ApiServer.eraseObject, Table.find?_insert_self]
    exact h.clusters.erase name
  ordered := h.ordered.erase name
  secrets := h.secrets

theorem writeStatus (h : Mirrors watched m s) (hn : IsObjectName name) {st : Status}
    (hst : st.IsProper) : ∃ r s', s.writeStatus name st = (r, s') ∧
      Mirrors watched (m.writeStatus name st).2 s' ∧
      r.isOk = (m.writeStatus name st).1.isOk := by
  rcases h.clusters.find? name with ⟨hm, hs⟩ | ⟨d, j, hm, hs, ht⟩
  · have hm' : m.find name = none := hm
    obtain ⟨received, he⟩ := ApiServer.writeStatus_eq_of_none h.plain hn st hs
    refine ⟨_, _, he, ?_, ?_⟩ <;> rw [MemoryStore.writeStatus, hm']
    · exact h.revise.received received
    · rfl
  · have hm' : m.find name = some d := hm
    -- The answer to a patch is the object as it is stored now, and that can be read.
    have htold : Tells name (d.withStatus st) (s.patched st j) :=
      (ht.patch hst).withVersion (s.revision + 1)
    obtain ⟨d', hd, hu⟩ := htold.reads
    obtain ⟨received, he⟩ := ApiServer.writeStatus_eq_of_some h.plain hn st hs
    refine ⟨_, _, he, ?_, ?_⟩ <;> rw [MemoryStore.writeStatus, hm']
    · have hset := (h.revise.setObject htold).received received
      exact ⟨hset.watched, hset.plain, hset.clusters, hset.ordered, hset.secrets⟩
    · simp only [ApiServer.decode_ofJson, hd]
      rfl

theorem putSecret (h : Mirrors watched m s) {j : Json} {data : SecretData}
    (hr : Secret.ofJson? j.sent = some data) :
    Mirrors watched (m.putSecret ns name data) (s.putSecret ns name j) where
  watched := h.watched
  plain := ⟨h.plain.watched, h.plain.canned⟩
  clusters := h.clusters
  ordered := h.ordered
  secrets := by
    intro ns' name' hns' hn'
    show SameSecret (Table.find? _ (Table.insert _ data m.secrets))
      (ApiServer.lookUp ns' name' (ApiServer.setObject ns name j s.secrets))
    -- The server has a table for each namespace, memory has one table with composite keys.
    by_cases he : ns' = ns ∧ name' = name
    · obtain ⟨rfl, rfl⟩ := he
      rw [Table.find?_insert_self, ApiServer.lookUp_setObject_self]
      exact .inr ⟨data, j, rfl, rfl, hr⟩
    · have hkey : MemoryStore.secretKey ns' name' ≠ MemoryStore.secretKey ns name :=
        fun hk => he (secretKey_inj hns' hn' hk)
      rw [Table.find?_insert_of_ne hkey, ApiServer.lookUp_setObject_of_ne he]
      exact h.secrets ns' name' hns' hn'

end Mirrors

end ClusterFleet
