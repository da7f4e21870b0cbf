import ClusterFleet.Registration.Service

namespace ClusterFleet

/-- What a watch tells of the descriptors of a namespace. It begins by listing all of them, and does
so again when it has lost track. -/
inductive Notice where
  | listingBegins
  | listed (d : Descriptor)
  | listingEnds
  /-- A descriptor was added or changed. -/
  | applied (d : Descriptor)
  | deleted (d : Descriptor)
  /-- The watch failed, and will go on after a while. -/
  | failed

namespace Registration

/-- An error of one descriptor does not keep the next one from being handled. -/
def handle (settings : RegistrationSettings) : Notice → Program Unit
  | .listed d | .applied d => do
    let _ ← register settings d
    return ()
  | .deleted d => unregister d.name
  | _ => return ()

def follow (settings : RegistrationSettings) : List Notice → Program Unit
  | [] => return ()
  | n :: ns => do
    handle settings n
    follow settings ns

end Registration
end ClusterFleet
