import ClusterFleet.Proofs.Store.Server

namespace ClusterFleet

/-- The same result, and states of which the same is to be seen. -/
def Same {σ τ α : Type} (seen : σ → τ) (x y : α × σ) : Prop := x.1 = y.1 ∧ seen x.2 = seen y.2

namespace ApiServer

def unlogged (s : ApiServer) : ApiServer := { s with received := [] }

section
variable {s t : ApiServer}

theorem unlogged_eq_iff : s.unlogged = t.unlogged ↔ s.bare = t.bare ∧ s.secrets = t.secrets := by
  simp only [unlogged, bare, mk.injEq, and_true, true_and, and_assoc]
  exact and_congr_right' (and_congr_right' (and_left_comm.trans (and_congr_right' and_comm)))

theorem Abreast.same {α : Type} {x y : α × ApiServer} (h : Abreast Eq s t x y)
    (hs : s.secrets = t.secrets) : Same unlogged x y :=
  ⟨h.result, unlogged_eq_iff.2 ⟨h.bare, h.secrets.1.trans (hs.trans h.secrets.2.symm)⟩⟩

theorem secret_congr (h : s.unlogged = t.unlogged) (ns name : String) :
    Same unlogged (s.secret ns name) (t.secret ns name) := by
  obtain ⟨hb, hs⟩ := unlogged_eq_iff.1 h
  exact (abreast_secret (fun _ => rfl) hb (secretReading_congr hs) ns name).same hs

theorem unlogged_serve {r : Resource} (hr : r.verb ≠ .patch) (body : Option Json) :
    (s.serve body r).2 = s := by
  cases r with
  | clusters ns => rfl
  | cluster ns name =>
    simp only [serve]
    cases lookUp ns name s.clusters <;> rfl
  | clusterStatus ns name => exact absurd rfl hr
  | secret ns name =>
    simp only [serve]
    cases lookUp ns name s.secrets <;> rfl

theorem unlogged_send {r : Resource} (hc : s.canned = []) (hr : r.verb ≠ .patch)
    (body : Option Json) : (s.send r body).2.unlogged = s.unlogged := by
  simp only [send]
  cases hq : r.request? body with
  | none => rfl
  | some q =>
    obtain ⟨-, rfl⟩ := Option.ite_none_right_eq_some.1 hq |>.imp_right Option.some.inj
    simp only [answer]
    split
    · rfl
    · next r' hr' =>
      -- The names may lead to another resource, but not to one of another method.
      have hmethod : r'.method = r.method := by
        simpa using (Option.filter_eq_some_iff.1 hr').2
      have hverb : r'.verb ≠ .patch := by
        intro hp
        simp only [Resource.method, hp, if_true, if_neg hr] at hmethod
        exact absurd hmethod (by decide)
      have hnone : s.canned.lookup r'.verb = none := by
        rw [hc]
        rfl
      simp only [takeCanned, hnone, unlogged_serve hverb]
      rfl

theorem unlogged_list (hc : s.canned = []) : s.list.2.unlogged = s.unlogged :=
  unlogged_send (r := .clusters s.watched) hc nofun none

theorem unlogged_secret (hc : s.canned = []) (ns name : String) :
    (s.secret ns name).2.unlogged = s.unlogged := by
  simp only [secret]
  split
  · rfl
  · refine unlogged_send (r := .secret ns name) hc ?_ none
    intro h
    cases h

end
end ApiServer

namespace Store

def unlogged : Store → Store
  | .memory m => .memory m
  | .server s => .server s.unlogged

def IsCalm : Store → Prop
  | .memory _ => True
  | .server s => s.canned = []

section
variable {s t : Store}

theorem unlogged_cases (h : s.unlogged = t.unlogged) :
    (∃ m, s = .memory m ∧ t = .memory m) ∨
      ∃ s' t', s = .server s' ∧ t = .server t' ∧ s'.unlogged = t'.unlogged := by
  cases s with
  | memory m =>
    cases t with
    | memory m' =>
      cases h
      exact .inl ⟨_, rfl, rfl⟩
    | server t => cases h
  | server s =>
    cases t with
    | memory m' => cases h
    | server t => exact .inr ⟨s, t, rfl, rfl, Store.server.inj h⟩

theorem same_server {α : Type} {x y : α × ApiServer} (h : Same ApiServer.unlogged x y) :
    Same unlogged (x.1, Store.server x.2) (y.1, Store.server y.2) :=
  ⟨h.1, congrArg Store.server h.2⟩

theorem find_congr (h : s.unlogged = t.unlogged) (name : String) :
    Same unlogged (s.find name) (t.find name) := by
  obtain ⟨m, rfl, rfl⟩ | ⟨s, t, rfl, rfl, hu⟩ := unlogged_cases h
  · exact ⟨rfl, rfl⟩
  · obtain ⟨hb, hs⟩ := ApiServer.unlogged_eq_iff.1 hu
    exact same_server ((ApiServer.abreast_find hb name).same hs)

theorem writeStatus_congr (h : s.unlogged = t.unlogged) (name : String) (st : Status) :
    Same unlogged (s.writeStatus name st) (t.writeStatus name st) := by
  obtain ⟨m, rfl, rfl⟩ | ⟨s, t, rfl, rfl, hu⟩ := unlogged_cases h
  · exact ⟨rfl, rfl⟩
  · obtain ⟨hb, hs⟩ := ApiServer.unlogged_eq_iff.1 hu
    exact same_server ((ApiServer.abreast_writeStatus hb name st).same hs)

theorem secret_congr (h : s.unlogged = t.unlogged) (ns name : String) :
    Same unlogged (s.secret ns name) (t.secret ns name) := by
  obtain ⟨m, rfl, rfl⟩ | ⟨s, t, rfl, rfl, hu⟩ := unlogged_cases h
  · exact ⟨rfl, rfl⟩
  · exact same_server (ApiServer.secret_congr hu ns name)

theorem IsCalm.unlogged_list (hc : s.IsCalm) : s.list.2.unlogged = s.unlogged := by
  cases s with
  | memory m => rfl
  | server s => exact congrArg Store.server (ApiServer.unlogged_list hc)

theorem IsCalm.unlogged_secret (hc : s.IsCalm) (ns name : String) :
    (s.secret ns name).2.unlogged = s.unlogged := by
  cases s with
  | memory m => rfl
  | server s => exact congrArg Store.server (ApiServer.unlogged_secret hc ns name)

end
end Store
end ClusterFleet
