import SqlMapper.Connection.Settings
import SqlMapper.Text.Blank

/-!
Properties: pairs of text that set up a data source. A value of a wrong form and an unknown key are
errors, which leave everything as it was.
-/

namespace SqlMapper

namespace Property

def read {α : Type} (reading : String → Option α) (key value : String) : Except Error α :=
  match reading (Text.trim value) with
  | some a => .ok a
  | none =>
    .error (.config ("invalid value '" ++ value ++ "' for property '" ++ key ++ "'"))

def bool? (value : String) : Option Bool :=
  if value = "true" then some true else if value = "false" then some false else none

def millis? (value : String) : Option Duration :=
  (Text.natBelow? (Nat.pow 2 64) value).map Duration.ofMillis

def unknown (key : String) : Error :=
  .config ("unknown data source property: " ++ key)

def driverName? (key : String) : Option String :=
  let start := "driver.".toList
  if start.isPrefixOf key.toList then some (.ofList (key.toList.drop start.length)) else none

end Property

namespace ConnectionSettings

/-- The settings with a property set; without a result, they have no such property. -/
def setProperty? (key value : String) (s : ConnectionSettings) :
    Except Error (Option ConnectionSettings) :=
  match Property.driverName? key with
  | some name => .ok (some { s with properties := Entries.insert name value s.properties })
  | none =>
    match key with
    | "url" => .ok (some { s with url := value })
    | "username" => .ok (some { s with username := some value })
    | "password" => .ok (some { s with password := some value })
    | "autoCommit" =>
      (Property.read Property.bool? key value).map fun b => some { s with autoCommit := some b }
    | "defaultTransactionIsolationLevel" =>
      (Property.read (fun v => (Isolation.ofText v).toOption) key value).map fun level =>
        some { s with isolation := some level }
    | "defaultNetworkTimeout" =>
      (Property.read Property.millis? key value).map fun d =>
        some { s with networkTimeout := some d }
    | _ => .ok none

def setProperties (properties : Entries String) (s : ConnectionSettings) :
    Except Error ConnectionSettings :=
  properties.foldlM (fun s p => do
    match ← s.setProperty? p.1 p.2 with
    | some s => return s
    | none => throw (Property.unknown p.1)) s

end ConnectionSettings
end SqlMapper
