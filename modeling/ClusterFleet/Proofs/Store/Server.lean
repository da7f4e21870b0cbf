import ClusterFleet.Proofs.Store.Resource
import ClusterFleet.World

namespace ClusterFleet

namespace ApiServer

def bare (s : ApiServer) : ApiServer := { s with received := [], secrets := [] }

def secretAnswer (s : ApiServer) (ns name : String) : Except StoreError Http.Document :=
  (s.serve none (.secret ns name)).1.map .ofJson

/-- What two servers answer, and what becomes of them. -/
structure Abreast {α : Type} (P : α → α → Prop) (s t : ApiServer) (x y : α × ApiServer) : Prop where
  result : P x.1 y.1
  bare : x.2.bare = y.2.bare
  secrets : x.2.secrets = s.secrets ∧ y.2.secrets = t.secrets
  received : s.received = t.received → x.2.received = y.2.received

section
variable {α β : Type} {P : α → α → Prop} {Q : β → β → Prop} {s t : ApiServer}
  {x y : α × ApiServer} {u v : β × ApiServer}

theorem Abreast.map (h : Abreast P s t x y) {f : α → β} (hf : ∀ a b, P a b → Q (f a) (f b)) :
    Abreast Q s t (f x.1, x.2) (f y.1, y.2) :=
  ⟨hf _ _ h.result, h.bare, h.secrets, h.received⟩

theorem Abreast.trans (h : Abreast P s t x y) (h' : Abreast Q x.2 y.2 u v) : Abreast Q s t u v :=
  ⟨h'.result, h'.bare, ⟨h'.secrets.1.trans h.secrets.1, h'.secrets.2.trans h.secrets.2⟩,
    fun hr => h'.received (h.received hr)⟩

theorem Abreast.here {a b : α} (ha : P a b) (h : s.bare = t.bare) :
    Abreast P s t (a, s) (b, t) := ⟨ha, h, ⟨rfl, rfl⟩, id⟩

theorem exists_of_bare (h : s.bare = t.bare) :
    ∃ l secrets, t = { s with received := l, secrets } := by
  cases s
  cases t
  simp only [bare, mk.injEq, and_true, true_and] at h
  obtain ⟨rfl, rfl, rfl, rfl⟩ := h
  exact ⟨_, _, rfl⟩

theorem abreast_takeCanned (h : s.bare = t.bare) (v : Verb) :
    Abreast Eq s t (s.takeCanned v) (t.takeCanned v) := by
  obtain ⟨l, secrets, rfl⟩ := exists_of_bare h
  simp only [takeCanned]
  cases s.canned.lookup v with
  | none => exact ⟨rfl, rfl, ⟨rfl, rfl⟩, id⟩
  | some c =>
    obtain ⟨a, times⟩ := c
    match times with
    | none => exact ⟨rfl, rfl, ⟨rfl, rfl⟩, id⟩
    | some 0 => exact ⟨rfl, rfl, ⟨rfl, rfl⟩, id⟩
    | some (n + 1) => exact ⟨rfl, rfl, ⟨rfl, rfl⟩, id⟩

theorem abreast_serve (h : s.bare = t.bare) (body : Option Json) {r : Resource}
    (hr : ∀ ns name, r ≠ .secret ns name) : Abreast Eq s t (s.serve body r) (t.serve body r) := by
  obtain ⟨l, secrets, rfl⟩ := exists_of_bare h
  cases r with
  | clusters ns => exact ⟨rfl, rfl, ⟨rfl, rfl⟩, id⟩
  | cluster ns name =>
    simp only [serve]
    cases lookUp ns name s.clusters <;> exact ⟨rfl, rfl, ⟨rfl, rfl⟩, id⟩
  | clusterStatus ns name =>
    simp only [serve, revise]
    cases lookUp ns name s.clusters <;> exact ⟨rfl, rfl, ⟨rfl, rfl⟩, id⟩
  | secret ns name => exact absurd rfl (hr ns name)

end

section
variable {P : Except StoreError Http.Document → Except StoreError Http.Document → Prop}
  {s t : ApiServer}

theorem serve_secret (h : s.secrets = t.secrets) (body : Option Json) (ns name : String) :
    ((s.serve body (.secret ns name)).1.map .ofJson, (s.serve body (.secret ns name)).2) =
      (t.secretAnswer ns name, s) := by
  simp only [secretAnswer, serve, h]
  cases lookUp ns name t.secrets <;> rfl

theorem abreast_answer (hP : ∀ x, P x x) (h : s.bare = t.bare) (q : Http.Request)
    (hq : ∀ ns name, Resource.ofRequest? q = some (.secret ns name) →
      P (s.secretAnswer ns name) (t.secretAnswer ns name)) :
    Abreast P s t (s.answer q) (t.answer q) := by
  have hlogged : Abreast Eq s t ((), { s with received := q :: s.received })
      ((), { t with received := q :: t.received }) :=
    ⟨rfl, h, ⟨rfl, rfl⟩, congrArg (q :: ·)⟩
  unfold answer
  generalize ({ s with received := q :: s.received } : ApiServer) = s₁ at hlogged ⊢
  generalize ({ t with received := q :: t.received } : ApiServer) = t₁ at hlogged ⊢
  cases hr : Resource.ofRequest? q with
  | none => exact hlogged.trans (.here (hP _) hlogged.bare)
  | some r =>
    have htaken := hlogged.trans (abreast_takeCanned hlogged.bare r.verb)
    cases hs : s₁.takeCanned r.verb with
    | mk a s₂ =>
      cases ht : t₁.takeCanned r.verb with
      | mk b t₂ =>
        rw [hs, ht] at htaken
        obtain rfl : a = b := htaken.result
        simp only [hs, ht]
        cases a with
        | some a => exact htaken.trans (.here (hP _) htaken.bare)
        | none =>
          by_cases hsecret : ∃ ns name, r = .secret ns name
          · obtain ⟨ns, name, rfl⟩ := hsecret
            simp only [serve_secret htaken.secrets.1, serve_secret htaken.secrets.2]
            exact htaken.trans (.here (hq ns name hr) htaken.bare)
          · have hserved := htaken.trans (abreast_serve htaken.bare q.body
              fun ns name he => hsecret ⟨ns, name, he⟩)
            exact hserved.map fun _ _ he => he ▸ hP _

theorem abreast_send (h : s.bare = t.bare) {r : Resource} (hr : r.verb ≠ .secret)
    (body : Option Json) : Abreast Eq s t (s.send r body) (t.send r body) := by
  simp only [send]
  cases hq : r.request? body with
  | none => exact .here rfl h
  | some q =>
    exact abreast_answer (fun _ => rfl) h q fun ns name he =>
      absurd he (Resource.ofRequest?_ne_secret hr hq ns name)

theorem abreast_sendSecret (hP : ∀ x, P x x) (h : s.bare = t.bare)
    (hsecrets : ∀ ns name, P (s.secretAnswer ns name) (t.secretAnswer ns name)) (ns name : String) :
    Abreast P s t (s.send (.secret ns name) none) (t.send (.secret ns name) none) := by
  simp only [send]
  cases (Resource.secret ns name).request? none with
  | none => exact .here (hP _) h
  | some q => exact abreast_answer hP h q fun ns name _ => hsecrets ns name

end

section
variable {s t : ApiServer}

theorem watched_of_bare (h : s.bare = t.bare) : s.watched = t.watched := by
  have hw := congrArg watched h
  exact hw

theorem abreast_find (h : s.bare = t.bare) (name : String) :
    Abreast Eq s t (s.find name) (t.find name) := by
  simp only [find, watched_of_bare h]
  split
  · exact .here rfl h
  · have hsent := abreast_send h (r := .cluster t.watched name) nofun none
    exact hsent.map (f := fun r => orAbsent (decode .get Descriptor.ofJson? r))
      fun _ _ he => he ▸ rfl

theorem abreast_list (h : s.bare = t.bare) : Abreast Eq s t s.list t.list := by
  simp only [list, watched_of_bare h]
  have hsent := abreast_send h (r := .clusters t.watched) nofun none
  exact hsent.map (f := decode .list items?) fun _ _ he => he ▸ rfl

theorem abreast_writeStatus (h : s.bare = t.bare) (name : String) (st : Status) :
    Abreast Eq s t (s.writeStatus name st) (t.writeStatus name st) := by
  simp only [writeStatus, watched_of_bare h]
  split
  · exact .here rfl h
  · have hsent := abreast_send h (r := .clusterStatus t.watched name) nofun (some (statusPatch st))
    exact hsent.map (f := fun r => (decode .patch Descriptor.ofJson? r).map fun _ => ())
      fun _ _ he => he ▸ rfl

def secretReading (s : ApiServer) (ns name : String) : Except StoreError (Option SecretData) :=
  orAbsent (decode .secret Secret.ofJson? (s.secretAnswer ns name))

theorem secretReading_congr (h : s.secrets = t.secrets) (ns name : String) :
    s.secretReading ns name = t.secretReading ns name := by
  have hanswer : s.secretAnswer ns name = t.secretAnswer ns name :=
    congrArg Prod.fst (serve_secret h none ns name)
  rw [secretReading, hanswer, secretReading]

/-- The names in a path may be those of another secret, so they are compared for all secrets. -/
theorem abreast_secret
    {P : Except StoreError (Option SecretData) → Except StoreError (Option SecretData) → Prop}
    (hP : ∀ x, P x x) (h : s.bare = t.bare)
    (hsecrets : ∀ ns name, P (s.secretReading ns name) (t.secretReading ns name))
    (ns name : String) : Abreast P s t (s.secret ns name) (t.secret ns name) := by
  simp only [secret]
  split
  · exact .here (hP _) h
  · have hsent := abreast_sendSecret (P := fun x y => P (orAbsent (decode .secret Secret.ofJson? x))
      (orAbsent (decode .secret Secret.ofJson? y))) (fun _ => hP _) h hsecrets ns name
    exact hsent.map fun _ _ h => h

end
end ApiServer
end ClusterFleet
