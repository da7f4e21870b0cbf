import ClusterFleet.Proofs.Access.Veil
import ClusterFleet.Proofs.Store.Server

namespace ClusterFleet

/-- The stores are the same but for their secrets, of which any two read akin. One that cannot be
read has the same text in both, for an error may tell where in it the reading came to an end. -/
inductive Store.DifferInTokens (key : String) : Store → Store → Prop
  | memory {m : MemoryStore} {secrets : Table SecretData}
    (h : ∀ ns name, AkinReading key (.ok (m.secret ns name))
      (.ok (({ m with secrets } : MemoryStore).secret ns name))) :
    DifferInTokens key (.memory m) (.memory { m with secrets })
  | server {s : ApiServer} {secrets : Table (Table Json)}
    (h : ∀ ns name, AkinReading key (s.secretReading ns name)
      (({ s with secrets } : ApiServer).secretReading ns name)) :
    DifferInTokens key (.server s) (.server { s with secrets })

def Store.withoutSecrets : Store → Store
  | .memory m => .memory { m with secrets := [] }
  | .server s => .server { s with secrets := [] }

namespace Store.DifferInTokens

variable {key : String} {s t : Store}

theorem withoutSecrets (h : DifferInTokens key s t) : s.withoutSecrets = t.withoutSecrets := by
  cases h <;> rfl

theorem of_abreast {α : Type} {P : α → α → Prop} {s t : ApiServer} {x y : α × ApiServer}
    (h : ∀ ns name, AkinReading key (s.secretReading ns name) (t.secretReading ns name))
    (hlog : s.received = t.received) (hxy : ApiServer.Abreast P s t x y) :
    P x.1 y.1 ∧ DifferInTokens key (.server x.2) (.server y.2) := by
  obtain ⟨l, secrets, hy⟩ := ApiServer.exists_of_bare hxy.bare
  have hl : x.2.received = l := by
    rw [hxy.received hlog, hy]
  refine ⟨hxy.result, ?_⟩
  rw [hy, ← hl]
  refine .server fun ns name => ?_
  have hsecrets : t.secrets = secrets := by
    rw [← hxy.secrets.2, hy]
  have hleft := ApiServer.secretReading_congr hxy.secrets.1 ns name
  have hright : ({ x.2 with secrets } : ApiServer).secretReading ns name =
      t.secretReading ns name := ApiServer.secretReading_congr hsecrets.symm ns name
  rw [hleft, hright]
  exact h ns name

theorem showsWrite (h : DifferInTokens key s t) (r : Except StoreError Unit) :
    s.showsWrite r = t.showsWrite r := by
  cases h <;> rfl

theorem find (h : DifferInTokens key s t) (name : String) :
    (s.find name).1 = (t.find name).1 ∧ DifferInTokens key (s.find name).2 (t.find name).2 := by
  cases h with
  | memory h => exact ⟨rfl, .memory h⟩
  | @server s secrets h =>
    have hb : s.bare = ({ s with secrets } : ApiServer).bare := rfl
    exact of_abreast h rfl (ApiServer.abreast_find hb name)

theorem list (h : DifferInTokens key s t) :
    s.list.1 = t.list.1 ∧ DifferInTokens key s.list.2 t.list.2 := by
  cases h with
  | memory h => exact ⟨rfl, .memory h⟩
  | @server s secrets h =>
    have hb : s.bare = ({ s with secrets } : ApiServer).bare := rfl
    have hlisted := ApiServer.abreast_list hb
    simp only [Store.list]
    exact of_abreast h rfl hlisted

theorem writeStatus (h : DifferInTokens key s t) (name : String) (st : Status) :
    (s.writeStatus name st).1 = (t.writeStatus name st).1 ∧
      DifferInTokens key (s.writeStatus name st).2 (t.writeStatus name st).2 := by
  cases h with
  | @memory m secrets h =>
    have hfind : ({ m with secrets } : MemoryStore).find name = m.find name := rfl
    simp only [Store.writeStatus, MemoryStore.writeStatus, hfind]
    cases m.find name with
    | none => exact ⟨rfl, .memory h⟩
    | some d => exact ⟨rfl, .memory h⟩
  | @server s secrets h =>
    have hb : s.bare = ({ s with secrets } : ApiServer).bare := rfl
    exact of_abreast h rfl (ApiServer.abreast_writeStatus hb name st)

theorem secret (h : DifferInTokens key s t) (ns name : String) :
    AkinReading key (s.secret ns name).1 (t.secret ns name).1 ∧
      DifferInTokens key (s.secret ns name).2 (t.secret ns name).2 := by
  cases h with
  | memory h => exact ⟨h ns name, .memory h⟩
  | @server s secrets h =>
    have hb : s.bare = ({ s with secrets } : ApiServer).bare := rfl
    exact of_abreast h rfl (ApiServer.abreast_secret .same hb h ns name)

end Store.DifferInTokens

end ClusterFleet
