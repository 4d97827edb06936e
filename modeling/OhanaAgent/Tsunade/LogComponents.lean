import OhanaAgent.Privacy.Redaction

/-!
# The component behind a log anomaly

A grouped anomaly has a signature, and the component is read from it: a service
unit of the agent, the logger of a Home Assistant line, or a known add-on.  Each
pattern is the function that matches it at a position; none needs to backtrack.
-/

namespace OhanaAgent.Tsunade

open OhanaAgent.Encoding.Json
open OhanaAgent.Privacy

/-! ## Patterns -/

/-- The first match of a pattern, which sees the character before a position. -/
def search {α : Type} (pattern : Option Char → Text → Option α) : Option Char → Text → Option α
  | before, [] => pattern before []
  | before, c :: rest =>
      match pattern before (c :: rest) with
      | some found => some found
      | none => search pattern (some c) rest

/-- The class `[a-z0-9_.\-]`. -/
def isLoggerChar (c : Char) : Bool :=
  c.isLower || c.isDigit || c == '_' || c == '.' || c == '-'

/-- `\[([a-z0-9_.\-]+)\]` at the head. -/
def bracketedName : Text → Option Text
  | '[' :: inside =>
      match run isLoggerChar inside with
      | ([], _) => none
      | (name, ']' :: _) => some name
      | _ => none
  | _ => none

/-- `_LOGGER`. -/
def loggerPattern (unicode : Unicode) (_ : Option Char) : Text → Option Text
  | '(' :: c :: rest =>
      if unicode.isWord c then
        match (run (fun d => unicode.isWord d || d == '-' || d == ' ') rest).2 with
        | ')' :: after => bracketedName (run isWhitespace after).2
        | _ => none
      else none
  | _ => none

/-- `_BRACKETED`. -/
def bracketedPattern (_ : Option Char) (text : Text) : Option Text :=
  (bracketedName text).filter fun name => name.head?.any Char.isLower

/-- `_SYSTEMD_UNIT`. -/
def systemdUnitPattern (unicode : Unicode) (before : Option Char) (text : Text) : Option Text :=
  if boundary unicode before then
    match strip "ohana-".toList text with
    | none => none
    | some after =>
        match run Char.isLower after with
        | ([], _) => none
        | (name, '[' :: _) => some ("ohana-".toList ++ name)
        | _ => none
  else none

/-- `_ADDON`. -/
def addonPattern (unicode : Unicode) (before : Option Char) (text : Text) : Option Unit :=
  if boundary unicode before then
    match strip "teleinfo2mqtt".toList text with
    | none => none
    | some after => if boundary unicode after.head? then some () else none
  else none

/-- `"cntrlr" in signature`. -/
def mentionsController (signature : Text) : Bool :=
  (search (fun _ text => strip "cntrlr".toList text) none signature).isSome

/-! ## Names -/

/-- `_DISPLAY_NAMES`. -/
def displayNames : List (Text × Text) :=
  [("aioesphomeapi", "ESPHome"), ("aioshelly", "Shelly"), ("esphome", "ESPHome"),
    ("kasa", "Kasa"), ("mqtt", "MQTT"), ("paho", "MQTT"), ("roombapy", "Roomba"),
    ("roomba", "Roomba"), ("shelly", "Shelly"), ("tapo", "Tapo"), ("tapo_control", "Tapo"),
    ("template", "Modèles Home Assistant"), ("iaqualink", "iAquaLink"),
    ("iaqualinkrobots", "iAquaLink"), ("rte_tempo", "RTE Tempo"), ("zwave_js", "Z-Wave JS"),
    ("hass_nabucasa", "Home Assistant Cloud"), ("async_upnp_client", "UPnP"),
    ("pysmartthings", "SmartThings"), ("co2signal", "CO2 Signal"), ("tplink", "TP-Link"),
    ("meteo_france", "Météo-France"), ("zeroconf", "Zeroconf")].map
    fun (name, shown) => (name.toList, shown.toList)

/-- `_ALIASES`: a library and its integration are one component. -/
def aliases : List (Text × Text) :=
  [("aioesphomeapi", "esphome"), ("aioshelly", "shelly"), ("paho", "mqtt"),
    ("roombapy", "roomba"), ("snitun", "hass_nabucasa"), ("tapo", "tapo_control")].map
    fun (name, shown) => (name.toList, shown.toList)

/-- `_OHANA_UNITS`. -/
def ohanaUnits : List (Text × Text) :=
  [("ohana-agent", "Ohana Agent"), ("ohana-vision", "Ohana Vision"),
    ("ohana-katsuyu", "Ohana Katsuyu")].map fun (name, shown) => (name.toList, shown.toList)

/-- The component id an accepted or displayed id stands for today. -/
def canonicalComponent (component : Text) : Text :=
  (aliases.lookup component).getD component

/-- A component id and its display name. -/
structure Component where
  id : Text
  label : Text
  deriving DecidableEq

/-- `OTHER`. -/
def otherComponent : Component := ⟨"other".toList, "Autre".toList⟩

section Titles

variable (title : Text → Text)

/-- `_title`. -/
def titleOf (name : Text) : Text :=
  (displayNames.lookup name).getD
    (title (name.map fun c => if c = '_' ∨ c = '-' then ' ' else c))

/-- Display name of a component id; the fallback is for ids without a rule. -/
def componentLabel (component fallback : Text) : Text :=
  match displayNames.lookup (canonicalComponent component) with
  | some known => known
  | none => if fallback.isEmpty then titleOf title component else fallback

/-- A component under its root name. -/
def rootComponent (name : Text) : Component :=
  ⟨canonicalComponent name, titleOf title (canonicalComponent name)⟩

/-- The component of a logger, from the parts of its name. -/
def loggerComponent (parts : List Text) : Component :=
  match parts with
  | [] => rootComponent title []
  | first :: rest =>
      if first = "custom_components".toList then
        match rest with
        | [] => rootComponent title first
        | integration :: _ => rootComponent title integration
      else if first = "homeassistant".toList then
        match rest with
        | components :: integration :: more =>
            if components = "components".toList then
              match more with
              | automation :: _ =>
                  -- one automation is one thing the user wrote and can fix
                  if integration = "automation".toList then
                    ⟨"automation.".toList ++ automation,
                      "Automatisation ".toList ++ titleOf title automation⟩
                  else rootComponent title integration
              | [] => rootComponent title integration
            else ⟨first, "Home Assistant".toList⟩
        | _ => ⟨first, "Home Assistant".toList⟩
      else rootComponent title first

/-- The component of one grouped log anomaly. -/
def logComponent (unicode : Unicode) (signature : Text) : Component :=
  match search (systemdUnitPattern unicode) none signature with
  | some unit => ⟨unit, (ohanaUnits.lookup unit).getD (titleOf title unit)⟩
  | none =>
      match (search (loggerPattern unicode) none signature).or
          (search bracketedPattern none signature) with
      | some logger => loggerComponent title (logger.splitOn '.')
      | none =>
          if (search (addonPattern unicode) none signature).isSome then
            ⟨"teleinfo2mqtt".toList, "teleinfo2mqtt".toList⟩
          else if mentionsController signature then
            ⟨"zwave_js.controller".toList, "Z-Wave JS (contrôleur)".toList⟩
          else otherComponent

end Titles

end OhanaAgent.Tsunade
