import ClusterFleet.Store.Resource

namespace ClusterFleet

def isNameChar (c : Char) : Bool := c.isLower || c.isDigit || c = '-' || c = '.'

/-- All names that an API server takes for an object or a namespace are of this form. -/
structure IsObjectName (s : String) : Prop where
  nonempty : s ≠ ""
  size : s.utf8ByteSize ≤ 253
  chars : ∀ c ∈ s.toList, isNameChar c

instance (s : String) : Decidable (IsObjectName s) :=
  decidable_of_iff (s ≠ "" ∧ s.utf8ByteSize ≤ 253 ∧ s.toList.all isNameChar)
    ⟨fun ⟨hne, hs, hc⟩ => ⟨hne, hs, List.all_eq_true.1 hc⟩,
      fun h => ⟨h.nonempty, h.size, List.all_eq_true.2 h.chars⟩⟩

theorem ranges_of_isNameChar {c : Char} (h : isNameChar c) :
    (97 ≤ c.toNat ∧ c.toNat ≤ 122) ∨ (45 ≤ c.toNat ∧ c.toNat ≤ 57 ∧ c.toNat ≠ 47) := by
  have hlower : c.isLower = (c.val ≥ 97 && c.val ≤ 122) := rfl
  simp only [isNameChar, hlower, Char.isDigit, Bool.or_eq_true, Bool.and_eq_true,
    decide_eq_true_eq, UInt32.le_iff_toNat_le, ge_iff_le] at h
  rcases h with ((⟨hlo, hhi⟩ | ⟨hlo, hhi⟩) | rfl) | rfl
  · exact .inl ⟨hlo, hhi⟩
  · have hdigit : 48 ≤ c.toNat ∧ c.toNat ≤ 57 := ⟨hlo, hhi⟩
    omega
  · exact .inr (by decide)
  · exact .inr (by decide)

theorem isPathChar_of_isNameChar {c : Char} (h : isNameChar c) : Endpoint.isPathChar c := by
  have hr := ranges_of_isNameChar h
  simp only [Endpoint.isPathChar, Bool.or_eq_true, Bool.and_eq_true, decide_eq_true_eq]
  omega

theorem ne_of_isNameChar {c d : Char} (h : isNameChar c) (hd : isNameChar d = false) : c ≠ d := by
  rintro rfl
  rw [h] at hd
  cases hd

namespace IsObjectName

variable {s : String}

theorem not_mem {c : Char} (h : IsObjectName s) (hc : isNameChar c = false) : c ∉ s.toList := by
  intro hm
  exact ne_of_isNameChar (h.chars c hm) hc rfl

end IsObjectName

namespace Resource

def names : Resource → List String
  | .clusters ns => [ns]
  | .cluster ns name | .clusterStatus ns name | .secret ns name => [ns, name]

def IsPlain (r : Resource) : Prop := ∀ s ∈ r.names, IsObjectName s

def collectionSegments (ns : String) : List String :=
  ["", "apis", apiGroup, apiVersionName, "namespaces", ns, Definition.plural]

def segments : Resource → List String
  | .clusters ns => collectionSegments ns
  | .cluster ns name => collectionSegments ns ++ [name]
  | .clusterStatus ns name => collectionSegments ns ++ [name, "status"]
  | .secret ns name => ["", "api", "v1", "namespaces", ns, "secrets", name]

variable {r : Resource}

theorem toList_path (r : Resource) :
    r.path.toList = ['/'].intercalate (r.segments.map String.toList) := by
  cases r <;> unfold path <;>
    simp [segments, collectionSegments, Definition.collectionPath, apiVersion, apiGroup,
      apiVersionName, Definition.plural, String.toList_append, List.intercalate, List.intersperse]

theorem segments_ne_nil (r : Resource) : r.segments ≠ [] := by
  cases r <;> simp [segments, collectionSegments]

def fixedSegments : List String :=
  ["", "apis", apiGroup, apiVersionName, "namespaces", Definition.plural, "status", "api", "v1",
    "secrets"]

theorem isNameChar_fixedSegments : ∀ s ∈ fixedSegments, ∀ c ∈ s.toList, isNameChar c := by
  have hall : fixedSegments.all (·.toList.all isNameChar) := by decide
  intro s hs c hc
  exact List.all_eq_true.1 (List.all_eq_true.1 hall s hs) c hc

theorem mem_segments {s : String} (h : s ∈ r.segments) : s ∈ r.names ∨ s ∈ fixedSegments := by
  cases r <;> grind [segments, collectionSegments, names, fixedSegments]

theorem isNameChar_segments (h : r.IsPlain) {s : String} (hs : s ∈ r.segments) {c : Char}
    (hc : c ∈ s.toList) : isNameChar c := by
  rcases mem_segments hs with hn | hf
  · exact (h s hn).chars c hc
  · exact isNameChar_fixedSegments s hf c hc

theorem ofSegments?_segments (r : Resource) : ofSegments? r.segments = some r := by
  cases r <;> simp [segments, collectionSegments, ofSegments?]

theorem ofPath?_path (h : r.IsPlain) : ofPath? r.path = some r := by
  have hslash : ∀ l ∈ r.segments.map String.toList, '/' ∉ l := by
    intro l hl
    obtain ⟨s, hs, rfl⟩ := List.mem_map.1 hl
    intro hc
    exact absurd (isNameChar_segments h hs hc) (by decide)
  have hne : r.segments.map String.toList ≠ [] := by simp [segments_ne_nil]
  rw [ofPath?, toList_path, List.splitOn_intercalate '/' hslash hne, List.map_map]
  simpa [Function.comp_def] using ofSegments?_segments r

theorem eq_or_mem_of_mem_intercalate {α : Type} {sep x : α} {ls : List (List α)}
    (h : x ∈ [sep].intercalate ls) : x = sep ∨ ∃ l ∈ ls, x ∈ l := by
  induction ls with
  | nil => simp [List.intercalate] at h
  | cons l rest ih =>
    cases rest with
    | nil => exact .inr (by simpa [List.intercalate] using h)
    | cons l' rest =>
      have hsplit : x ∈ l ∨ x = sep ∨ x ∈ [sep].intercalate (l' :: rest) := by
        simpa [List.intercalate, List.intersperse] using h
      rcases hsplit with hl | hs | hr
      · exact .inr ⟨l, List.mem_cons_self, hl⟩
      · exact .inl hs
      · rcases ih hr with hs | ⟨m, hm, hx⟩
        · exact .inl hs
        · exact .inr ⟨m, List.mem_cons_of_mem l hm, hx⟩

theorem mem_path (h : r.IsPlain) {c : Char} (hc : c ∈ r.path.toList) : isNameChar c ∨ c = '/' := by
  rw [toList_path] at hc
  rcases eq_or_mem_of_mem_intercalate hc with hs | ⟨l, hl, hc⟩
  · exact .inr hs
  · obtain ⟨s, hs, rfl⟩ := List.mem_map.1 hl
    exact .inl (isNameChar_segments h hs hc)

theorem ne_of_mem_path (h : r.IsPlain) {c d : Char} (hc : c ∈ r.path.toList)
    (hd : isNameChar d = false) (hslash : d ≠ '/') : c ≠ d := by
  rcases mem_path h hc with hn | rfl
  · exact ne_of_isNameChar hn hd
  · exact hslash.symm

theorem exists_toList_target (r : Resource) :
    ∃ q, (q = [] ∨ q = ['?']) ∧ r.target.toList = r.path.toList ++ q := by
  cases r <;> simp [target, verb, String.toList_append]

theorem pathOfTarget_target (h : r.IsPlain) : pathOfTarget r.target = r.path := by
  have hkept : ∀ c ∈ r.path.toList, (c ≠ '?' && c ≠ '#') = true := by
    intro c hc
    have hq := ne_of_mem_path h hc (d := '?') (by decide) (by decide)
    have hh := ne_of_mem_path h hc (d := '#') (by decide) (by decide)
    simp [hq, hh]
  obtain ⟨q, hq, ht⟩ := exists_toList_target r
  have hdropped : q.takeWhile (fun c => c ≠ '?' && c ≠ '#') = [] := by
    rcases hq with rfl | rfl <;> rfl
  rw [pathOfTarget, ht, List.takeWhile_append_of_pos hkept, hdropped, List.append_nil,
    String.ofList_toList]

theorem utf8ByteSize_collectionPath (ns : String) :
    (Definition.collectionPath ns).utf8ByteSize = ns.utf8ByteSize + 72 := by
  have hfixed : "/apis/".utf8ByteSize + apiVersion.utf8ByteSize + "/namespaces/".utf8ByteSize +
      "/".utf8ByteSize + Definition.plural.utf8ByteSize = 72 := by decide
  simp only [Definition.collectionPath, String.utf8ByteSize_append]
  omega

theorem utf8ByteSize_target_le (h : r.IsPlain) : r.target.utf8ByteSize ≤ Endpoint.maxLength := by
  have hslash : "/".utf8ByteSize = 1 := by decide
  have hstatus : "/status".utf8ByteSize = 7 := by decide
  have hquestion : "?".utf8ByteSize = 1 := by decide
  have hcore : "/api/v1/namespaces/".utf8ByteSize = 19 := by decide
  have hsecrets : "/secrets/".utf8ByteSize = 9 := by decide
  have hsize (s : String) (hs : s ∈ r.names) : s.utf8ByteSize ≤ 253 := (h s hs).size
  -- Two names, and the fixed text around them.
  cases r <;> unfold target path <;>
    simp only [verb, String.utf8ByteSize_append, utf8ByteSize_collectionPath, names,
      List.forall_mem_cons, Endpoint.maxLength] at hsize ⊢ <;> omega

theorem isSendable_target (h : r.IsPlain) : isSendable r.target := by
  have hpath : r.path.toList.all Endpoint.isPathChar := by
    rw [List.all_eq_true]
    intro c hc
    rcases mem_path h hc with hn | rfl
    · exact isPathChar_of_isNameChar hn
    · decide
  have hquestion : ∀ c ∈ r.path.toList, decide (c ≠ '?') = true := by
    intro c hc
    simp [ne_of_mem_path h hc (d := '?') (by decide) (by decide)]
  have hhash : ∀ c ∈ r.path.toList, decide (c ≠ '#') = true := by
    intro c hc
    simp [ne_of_mem_path h hc (d := '#') (by decide) (by decide)]
  obtain ⟨q, hq, ht⟩ := exists_toList_target r
  have hall : q.takeWhile (fun c => c ≠ '#') = q := by rcases hq with rfl | rfl <;> rfl
  have hnone : q.takeWhile (fun c => c ≠ '?') = [] := by rcases hq with rfl | rfl <;> rfl
  have hempty : (q.dropWhile (fun c => c ≠ '?')).drop 1 = [] := by rcases hq with rfl | rfl <;> rfl
  simp only [isSendable, ht, utf8ByteSize_target_le h, List.takeWhile_append_of_pos hhash, hall,
    List.takeWhile_append_of_pos hquestion, hnone, List.dropWhile_append_of_pos hquestion, hempty,
    List.append_nil, hpath, List.all_nil, decide_true, Bool.and_self]

/-- A request for a plain resource is written as it stands, and it is a request for the resource. -/
theorem request?_of_isPlain (h : r.IsPlain) (body : Option Json) :
    r.request? body = some ⟨r.method, r.path, body⟩ := by
  rw [request?, if_pos (isSendable_target h), pathOfTarget_target h]

theorem ofRequest?_of_isPlain (h : r.IsPlain) (body : Option Json) :
    ofRequest? ⟨r.method, r.path, body⟩ = some r := by
  simp [ofRequest?, ofPath?_path h]

/-- The paths of all resources but secrets begin in this way. -/
def groupChars : List Char := ['/', 'a', 'p', 'i', 's', '/']

theorem splitOn_groupChars (rest : List Char) :
    (groupChars ++ rest).splitOn '/' = [] :: ['a', 'p', 'i', 's'] :: rest.splitOn '/' := by
  simp [groupChars, List.splitOn, List.splitOnP_cons_eq_if_modifyHead]

theorem ofSegments?_eq_secret {ss : List String} {ns name : String}
    (h : ofSegments? ss = some (.secret ns name)) : ∃ rest, ss = "" :: "api" :: rest := by
  unfold ofSegments? at h
  split at h
  · exact ⟨_, rfl⟩
  · split at h
    · cases h
    · split at h <;> cases h
  · cases h

theorem exists_toList_path {r : Resource} (hr : r.verb ≠ .secret) :
    ∃ rest, r.path.toList = groupChars ++ rest := by
  have hcollection (ns : String) : ∃ rest, (Definition.collectionPath ns).toList =
      groupChars ++ rest := by
    simp only [Definition.collectionPath, String.toList_append, List.append_assoc]
    exact ⟨_, rfl⟩
  cases r with
  | clusters ns =>
    unfold path
    exact hcollection ns
  | cluster ns name =>
    obtain ⟨rest, hrest⟩ := hcollection ns
    unfold path
    simp only [String.toList_append, hrest, List.append_assoc]
    exact ⟨_, rfl⟩
  | clusterStatus ns name =>
    obtain ⟨rest, hrest⟩ := hcollection ns
    unfold path
    simp only [String.toList_append, hrest, List.append_assoc]
    exact ⟨_, rfl⟩
  | secret ns name => exact (hr rfl).elim

theorem ofRequest?_ne_secret {r : Resource} (hr : r.verb ≠ .secret) {body : Option Json}
    {q : Http.Request} (hq : r.request? body = some q) (ns name : String) :
    ofRequest? q ≠ some (.secret ns name) := by
  intro h
  obtain ⟨-, rfl⟩ := Option.ite_none_right_eq_some.1 hq |>.imp_right Option.some.inj
  obtain ⟨query, -, ht⟩ := exists_toList_target r
  obtain ⟨rest, hp⟩ := exists_toList_path hr
  obtain ⟨segments, hs⟩ := ofSegments?_eq_secret (Option.filter_eq_some_iff.1 h).1
  have hkept : ∀ c ∈ groupChars, (c ≠ '?' && c ≠ '#') = true := List.all_eq_true.1 (by decide)
  rw [pathOfTarget, String.toList_ofList, ht, hp, List.append_assoc,
    List.takeWhile_append_of_pos hkept, splitOn_groupChars, List.map_cons, List.map_cons,
    List.cons.injEq, List.cons.injEq] at hs
  exact absurd hs.2.1 (by decide)

end Resource
end ClusterFleet
