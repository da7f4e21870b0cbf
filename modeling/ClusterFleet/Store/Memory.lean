import ClusterFleet.Program

namespace ClusterFleet

/-- In which order a store lists its descriptors. It may be another one after every change. -/
structure Layout where
  order : Nat → List Descriptor → List Descriptor
  perm : ∀ n ds, (order n ds).Perm ds

def Layout.byName : Layout := ⟨fun _ ds => ds, fun _ _ => .refl _⟩

structure MemoryStore where
  clusters : Table Descriptor := []
  secrets : Table SecretData := []
  /-- How many statuses have been written. -/
  statusWrites : Nat := 0
  /-- How often a descriptor has been put or removed. -/
  changes : Nat := 0
  layout : Layout := .byName

namespace MemoryStore

/-- Files a descriptor under its own name; one without a name goes under the empty one. -/
def put (m : MemoryStore) (d : Descriptor) : MemoryStore :=
  { m with
    clusters := m.clusters.insert (d.metadata.name.getD "") d
    changes := m.changes + 1 }

def remove (m : MemoryStore) (name : String) : MemoryStore :=
  { m with clusters := m.clusters.erase name, changes := m.changes + 1 }

def find (m : MemoryStore) (name : String) : Option Descriptor := m.clusters.find? name

def list (m : MemoryStore) : List Descriptor := m.layout.order m.changes m.clusters.values

def writeStatus (m : MemoryStore) (name : String) (s : Status) :
    Except StoreError Unit × MemoryStore :=
  match m.find name with
  | none => (.error (.notFound name), m)
  | some d =>
    (.ok (), { m with
      clusters := m.clusters.insert name (d.withStatus s)
      statusWrites := m.statusWrites + 1 })

/-- A secret is filed under its namespace and name with a slash between them. -/
def secretKey (ns name : String) : String := ns ++ "/" ++ name

def putSecret (m : MemoryStore) (ns name : String) (data : SecretData) : MemoryStore :=
  { m with secrets := m.secrets.insert (secretKey ns name) data }

def secret (m : MemoryStore) (ns name : String) : Option SecretData :=
  m.secrets.find? (secretKey ns name)

end MemoryStore
end ClusterFleet
