import ClusterFleet.Health.Check
import ClusterFleet.Health.Pass
import ClusterFleet.Proofs.Text.Utf8
import ClusterFleet.Proofs.Trail

namespace ClusterFleet.Health
open Http Text

def spellings : List String := ["ok", "oK", "Ok", "OK"]

def spellsOk (body : List UInt8) : Bool := body ∈ spellings.map Utf8.encode

theorem eq_or_eq_of_toLower {c lower : Char} (upper : Char) (hu : upper.toNat + 32 = lower.toNat)
    (h : c.toLower = lower) : c = lower ∨ c = upper := by
  subst h
  revert hu
  unfold Char.toLower
  split
  · next hc =>
    have hlt : c.toNat ≤ 90 := UInt32.le_iff_toNat_le.1 hc.2
    intro hu
    change upper.toNat + 32 = (c.toNat + 32) % 4294967296 at hu
    right
    rw [← Char.ofNat_toNat c, ← Char.ofNat_toNat upper]
    congr 1
    omega
  · exact fun _ => .inl rfl

theorem saysOk_iff {s : String} : saysOk s ↔ s ∈ spellings := by
  constructor
  · intro h
    obtain ⟨o, ks, hs, ho, hks⟩ := List.map_eq_cons_iff.1 (of_decide_eq_true h)
    obtain ⟨k, rest, rfl, hk, hrest⟩ := List.map_eq_cons_iff.1 hks
    rw [List.map_eq_nil_iff] at hrest
    subst hrest
    have hs' : s = String.ofList [o, k] := by rw [← hs, String.ofList_toList]
    rcases eq_or_eq_of_toLower 'O' rfl ho with rfl | rfl <;>
      rcases eq_or_eq_of_toLower 'K' rfl hk with rfl | rfl <;>
        rw [hs'] <;> decide
  · intro h
    simp only [spellings, List.mem_cons, List.not_mem_nil, or_false] at h
    rcases h with rfl | rfl | rfl | rfl <;> decide

theorem spellsOk_iff {body : List UInt8} :
    spellsOk body ↔ ∃ s, Utf8.decode? body = some s ∧ saysOk s := by
  simp only [spellsOk, decide_eq_true_eq, List.mem_map, saysOk_iff, Utf8.decode?_eq_some_iff]
  constructor
  · rintro ⟨s, hs, rfl⟩
    exact ⟨s, rfl, hs⟩
  · rintro ⟨s, rfl, hs⟩
    exact ⟨s, hs, rfl⟩

theorem isText_of_spellsOk {body : List UInt8} (h : spellsOk body) : Utf8.IsText body := by
  obtain ⟨s, hs, _⟩ := spellsOk_iff.1 h
  exact ⟨s, Utf8.decode?_eq_some_iff.1 hs⟩

variable {a : Answer} {code : Nat} {body : List UInt8}

theorem text?_response (hc : ¬isErrorCode code) :
    (Answer.response code body).text? = Utf8.decode? body := by
  rw [Answer.text?, if_neg hc]

theorem observe_of_error (hc : isErrorCode code) : observe (.response code body) = [offline] := by
  rw [observe, Answer.text?, if_pos hc, classify]

theorem observe_of_not_text (hb : ¬Utf8.IsText body) :
    observe (.response code body) = [offline] := by
  by_cases hc : isErrorCode code
  · exact observe_of_error hc
  · rw [observe, text?_response hc, Utf8.decode?_eq_none_iff.2 hb, classify]

theorem observe_of_text (hc : ¬isErrorCode code) (hb : Utf8.IsText body) :
    observe (.response code body) = if spellsOk body then [ready] else [notReady, reachable] := by
  obtain ⟨s, hs⟩ := hb
  have hd := Utf8.decode?_eq_some_iff.2 hs
  have hsays : saysOk s = spellsOk body := by
    rw [Bool.eq_iff_iff, spellsOk_iff, hd]
    simp
  rw [observe, text?_response hc, hd, classify, hsays]

theorem ready_ne_offline : ready ≠ offline := by decide

theorem ite_ne_offline (p : Bool) :
    (if p then [ready] else [notReady, reachable]) ≠ [offline] := by
  cases p <;> decide

theorem observe_eq_offline_iff : observe a = [offline] ↔
    ∀ code body, a = .response code body → isErrorCode code ∨ ¬Utf8.IsText body := by
  cases a with
  | failed => simp [observe, Answer.text?, classify]
  | response code body =>
    by_cases hc : isErrorCode code
    · simp [observe_of_error hc, hc]
    · by_cases hb : Utf8.IsText body
      · simp [observe_of_text hc hb, ite_ne_offline, hc, hb]
      · simp [observe_of_not_text hb, hb]

theorem observe_eq_ready_iff : observe a = [ready] ↔
    ∃ code body, a = .response code body ∧ ¬isErrorCode code ∧ spellsOk body := by
  cases a with
  | failed => simp [observe, Answer.text?, classify, ready_ne_offline.symm]
  | response code body =>
    by_cases hc : isErrorCode code
    · simp [observe_of_error hc, ready_ne_offline.symm, hc]
    · by_cases hb : Utf8.IsText body
      · simp [observe_of_text hc hb, hc, and_assoc]
      · have hok : ¬spellsOk body := fun h => hb (isText_of_spellsOk h)
        simp [observe_of_not_text hb, ready_ne_offline.symm, hok]

theorem observe_eq_notReady_iff : observe a = [notReady, reachable] ↔
    ∃ code body, a = .response code body ∧
      ¬isErrorCode code ∧ Utf8.IsText body ∧ ¬spellsOk body := by
  cases a with
  | failed => simp [observe, Answer.text?, classify]
  | response code body =>
    by_cases hc : isErrorCode code
    · simp [observe_of_error hc, hc]
    · by_cases hb : Utf8.IsText body
      · simp [observe_of_text hc hb, hc, hb, and_assoc]
      · simp [observe_of_not_text hb, hb]

def isSuccess (code : Nat) : Bool := 200 ≤ code && code ≤ 299

/-- A cluster that answers with success is reachable, and ready if it says `ok`; any other is
offline. -/
def meant : Answer → List Condition
  | .failed => [offline]
  | .response code body =>
    if !isSuccess code then [offline]
    else if spellsOk body then [ready]
    else [notReady, reachable]

theorem not_isErrorCode_of_isSuccess (h : isSuccess code) : ¬isErrorCode code := by
  simp only [isSuccess, isErrorCode, Bool.and_eq_true, decide_eq_true_eq] at *
  omega

theorem meant_of_success (h : isSuccess code) :
    meant (.response code body) = if spellsOk body then [ready] else [notReady, reachable] := by
  simp [meant, h]

theorem meant_of_not_success (h : ¬isSuccess code) : meant (.response code body) = [offline] := by
  simp [meant, h]

/-- An answer is taken as it is meant just when it is an error, or it is text if and only if it is a
success. -/
theorem observe_eq_meant_iff : observe a = meant a ↔
    ∀ code body, a = .response code body →
      isErrorCode code ∨ (isSuccess code ↔ Utf8.IsText body) := by
  cases a with
  | failed => simp [observe, Answer.text?, classify, meant]
  | response code body =>
    by_cases hc : isErrorCode code
    · have hs : ¬isSuccess code := fun hs => not_isErrorCode_of_isSuccess hs hc
      simp [observe_of_error hc, meant_of_not_success hs, hc]
    · by_cases hb : Utf8.IsText body <;> by_cases hs : isSuccess code
      · simp [observe_of_text hc hb, meant_of_success hs, hb, hs]
      · simp [observe_of_text hc hb, meant_of_not_success hs, hc, hb, hs, ite_ne_offline]
      · simp [observe_of_not_text hb, meant_of_success hs, hc, hb, hs, (ite_ne_offline _).symm]
      · simp [observe_of_not_text hb, meant_of_not_success hs, hb, hs]

/-- A pass that finds a connection makes one check with it. -/
theorem recordProbe_eq_check (name : String) (d : Descriptor) (c : Connection) (interval : Span) :
    recordProbe name d c interval = (do
      let observed ← check c.client
      let now ← Program.act .now
      persist name (Condition.merge d.conditions observed now) (.ok (.requeueAfter interval))) :=
  rfl

/-- What a check through this client does and finds, if it is answered `a`. -/
structure Finds (c : Client) (a : Answer) (ds : List ClusterFleet.Deed)
    (found : List Condition) : Prop where
  asks_once : (ds.map (·.action)).filterMap sent? = [(c, ⟨"GET", "/healthz", none⟩)]
  offline_iff : found = [offline] ↔
    ∀ code body, a = .response code body → isErrorCode code ∨ ¬Utf8.IsText body
  ready_iff : found = [ready] ↔
    ∃ code body, a = .response code body ∧ ¬isErrorCode code ∧ spellsOk body
  notReady_iff : found = [notReady, reachable] ↔
    ∃ code body, a = .response code body ∧ ¬isErrorCode code ∧ Utf8.IsText body ∧ ¬spellsOk body
  meant_iff : found = meant a ↔
    ∀ code body, a = .response code body → isErrorCode code ∨ (isSuccess code ↔ Utf8.IsText body)

theorem finds_of_check {σ : Type} (h : Handler σ) (s : σ) (c : Client) : ∃ found,
    ((check c).runBy h s).1 = some found ∧
      Finds c (h s (.probe c)).1 ((check c).transcript h s) found :=
  ⟨observe (h s (.probe c)).1, rfl,
    { asks_once := rfl
      offline_iff := observe_eq_offline_iff
      ready_iff := observe_eq_ready_iff
      notReady_iff := observe_eq_notReady_iff
      meant_iff := observe_eq_meant_iff }⟩

def member : Client where
  kubeconfig := ⟨"https://member-1.example:6443", false, none, "tok"⟩
  connectTimeout := .ofSeconds 5
  readTimeout := .ofSeconds 10

def answering (a : Answer) : World where
  store := .memory {}
  clock := { start := ⟨0, 0⟩ }
  remotes := [(member.kubeconfig.server, a)]

theorem run_check_answering (a : Answer) :
    ((check member).run (answering a)).1 = some (observe a) := by
  have h : (answering a).remoteAnswer member = a := by
    simp [World.remoteAnswer, answering, Table.find?]
  change some (observe ((answering a).remoteAnswer member)) = _
  rw [h]

/-- A redirection that says `ok` shows a ready cluster, and a success that is no text shows an
offline one. -/
theorem not_meant_redirected :
    ((check member).run (answering (.response 302 [0x6F, 0x6B]))).1 = some [ready] ∧
    meant (.response 302 [0x6F, 0x6B]) = [offline] ∧
    ((check member).run (answering (.response 200 [0xFF]))).1 = some [offline] ∧
    meant (.response 200 [0xFF]) = [notReady, reachable] := by
  have hok : spellsOk [0x6F, 0x6B] := by decide +kernel
  have hbad : ¬Utf8.IsText [0xFF] := Utf8.decode?_eq_none_iff.1 (by decide +kernel)
  refine ⟨?_, meant_of_not_success (by decide), ?_, ?_⟩
  · rw [run_check_answering, observe_of_text (by decide) (isText_of_spellsOk hok), if_pos hok]
  · rw [run_check_answering, observe_of_not_text hbad]
  · rw [meant_of_success (by decide), if_neg (by decide +kernel)]

end ClusterFleet.Health
