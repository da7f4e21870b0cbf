namespace ClusterFleet

structure RestConfig where
  host : String
  /-- Do not verify the server's certificate. -/
  insecure : Bool
  /-- The certificates to trust: PEM text in base 64. -/
  caData : Option String
  bearerToken : String
  deriving DecidableEq, Repr

end ClusterFleet
