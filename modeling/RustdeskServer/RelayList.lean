import RustdeskServer.Text

/-!
# Relay lists

`relay_routes::normalize` and `parse_relay_list`: how a relay list as written in `-r` or
`RELAY` is taken apart.

## Main definitions

* `normalize` — the name two entries for one relay share.
* `relayEntryProblem`, `parseRelayList` — the entries that are used, and the others with
  the reason.
-/

namespace RustdeskServer

/-- `config::RELAY_PORT`. -/
def RELAY_PORT : ℕ := 21117

section RelayList

variable (U : Unicode)

/-- `normalize`. -/
def normalize (relay : String) : String :=
  let relay := U.toLowercase (Text.trim relay)
  if Text.contains ':' relay then relay else relay ++ ":" ++ toString RELAY_PORT

/-- The host and the port of an entry, or why there is none.  The outer `none` is the
early return of `?`, which reports no problem. -/
def hostPort (entry : String) : Option (Except String (String × Option String)) :=
  match Text.stripHead '[' entry with
  | some rest =>
    (Text.splitOnce ']' rest).map fun p => .ok (entry, Text.stripHead ':' p.2)
  | none =>
    match entry.toList.count ':' with
    | 0 => some (.ok (entry, none))
    | 1 => (Text.splitOnce ':' entry).map fun p => .ok (p.1, some p.2)
    | _ => some (.error "has several colons; an IPv6 address needs brackets, [::1]:21117")

/-- `relay_entry_problem`. -/
def relayEntryProblem (entry : String) : Option String :=
  if entry.toList.any Text.isWhitespace then some "contains a space"
  else if Text.containsStr "://" entry || Text.contains '/' entry then
    some "is a URL; write just host or host:port"
  else
    match hostPort entry with
    | none => none
    | some (.error why) => some why
    | some (.ok (host, port)) =>
      if host = "" ∨ host = ":" then some "has no host"
      else match port with
        | none => none
        | some p =>
          match Text.parseUnsigned 65535 p with
          | some n => if 0 < n then none else some (U.debug p ++ " is not a port number")
          | none => some (U.debug p ++ " is not a port number")

/-- The loop of `parse_relay_list`, over the entries kept and dropped so far. -/
def parseEntries : List String → List String → List (String × String) →
    List String × List (String × String)
  | [], kept, dropped => (kept, dropped)
  | raw :: raws, kept, dropped =>
    let entry := Text.trim raw
    if entry = "" then parseEntries raws kept dropped
    else match relayEntryProblem U entry with
      | none =>
        if kept.any fun k => normalize U k == normalize U entry then
          parseEntries raws kept (dropped ++ [(entry, "listed twice")])
        else parseEntries raws (kept ++ [entry]) dropped
      | some why => parseEntries raws kept (dropped ++ [(entry, why)])

/-- `parse_relay_list`. -/
def parseRelayList (list : String) : List String × List (String × String) :=
  parseEntries U (Text.split ',' list) [] []

end RelayList

example : (parseRelayList .ascii "a.example.com, b:99 ,A.example.com:21117,x y,::1").1 =
    ["a.example.com", "b:99"] := by decide +kernel

example : relayEntryProblem .ascii "a:70000" = some "\"70000\" is not a port number" := by decide +kernel

end RustdeskServer
