import ClusterFleet.Cluster.Definition

/-- Prints the resource definition, to be applied to an API server before the first descriptor is.
JSON is YAML, so it goes where YAML is asked for. -/
def main : IO Unit := IO.println ClusterFleet.Definition.definition.compact
