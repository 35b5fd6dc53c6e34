import GlassHive.RunActionCapabilities
import GlassHive.Library.Fallible
import GlassHive.Library.JsonObjects

/-!
# Library manifests

A library item is described by a manifest, which is validated before it is published and whenever
it is installed. What is validated comes back with some of its fields normalized.

`Platform` stands for the tables of Unicode, SHA-256 and the parsers of URLs, addresses and TOML. A
date of TOML is its text. How deep values are nested and how long integers are is not limited here.
-/

namespace GlassHive.LibraryManifests

open RunActions (Interpreter get textOrEmpty truthy isText isNumber isAlnum)
open Json (Fields has keysWithin keysAre getOr update)
open Fallible (demand)

/-- Why a manifest is refused: a `LibraryManifestError`, or an exception that is not mapped to
one. -/
inductive Refusal
  | manifest (message : Points)
  | uncaught
  deriving DecidableEq, Repr

/-- The parts of a URL. One that is missing is empty. -/
structure Url where
  scheme : Points
  netloc : Points
  username : Points
  password : Points
  query : Points
  fragment : Points
  hostname : Points

/-- The tables and libraries. Folding the case of a character makes dots of dots only. An address
is global or not, and a text that is no address has no answer. -/
structure Platform where
  py : Interpreter
  floatWithin : Points → ℤ → ℤ → Bool
  fold : ℕ → Points
  fold_ascii : ∀ c < 128, fold c = [if 65 ≤ c ∧ c ≤ 90 then c + 32 else c]
  fold_ne_nil : ∀ c, fold c ≠ []
  dot_of_fold : ∀ c, 46 ∈ fold c → c = 46
  isWord : ℕ → Bool
  sha256 : List UInt8 → List UInt8
  urlparse : Points → Option Url
  isGlobal : Points → Option Bool
  tomlLoads : Points → Except Refusal Fields

/-! ## Texts -/

/-- A text is one of some words. -/
def oneOf (t : Points) (words : List String) : Bool :=
  words.any fun word => t == Points.ofString word

/-- `str.lower` of a character, as far as it is compared with ASCII: beside the letters of ASCII
only the sign of the kelvin becomes such a letter alone. -/
def lowerPoint (c : ℕ) : ℕ :=
  if c = 0x212a then 107 else if 65 ≤ c ∧ c ≤ 90 then c + 32 else c

/-- `str.lower`, to the same extent. -/
def lower (t : Points) : Points :=
  t.map lowerPoint

def isDigit (c : ℕ) : Bool :=
  48 ≤ c && c ≤ 57

def isLowerAlpha (c : ℕ) : Bool :=
  97 ≤ c && c ≤ 122

/-- `[a-z0-9._-]`. -/
def isStableChar (c : ℕ) : Bool :=
  isLowerAlpha c || isDigit c || c == 46 || c == 95 || c == 45

/-- `_STABLE_ID`. -/
def isStableId : Points → Bool
  | [] => false
  | c :: cs =>
    (isLowerAlpha c || isDigit c) && 2 ≤ cs.length && cs.length ≤ 199 && cs.all isStableChar

/-- `[0-9A-Za-z.-]`. -/
def isVersionChar (c : ℕ) : Bool :=
  isAlnum c || c == 46 || c == 45

/-- `_VERSION`. -/
def isVersion (t : Points) : Bool :=
  let main := (t.takeWhile (· ≠ 45)).splitOn 46
  main.length == 3 && main.all (fun part => !part.isEmpty && part.all isDigit) &&
    match t.dropWhile (· ≠ 45) with
    | [] => true
    | _ :: rest => !rest.isEmpty && rest.all isVersionChar

/-- `[a-z][a-z0-9._-]{0,63}`. -/
def isScopePart : Points → Bool
  | [] => false
  | c :: cs => isLowerAlpha c && cs.length ≤ 63 && cs.all isStableChar

/-- `_SCOPE`. -/
def isScope (t : Points) : Bool :=
  match t.dropWhile (· ≠ 58) with
  | [] => false
  | _ :: rest => isScopePart (t.takeWhile (· ≠ 58)) && isScopePart rest

/-- `_MCP_SERVER`. -/
def isMcpServer (t : Points) : Bool :=
  1 ≤ t.length && t.length ≤ 120 &&
    t.all fun c => isAlnum c || c == 95 || c == 46 || c == 58 || c == 45

/-- `sha256:[0-9a-f]{64}`. -/
def isContentHash (t : Points) : Bool :=
  (Points.ofString "sha256:").isPrefixOf t && t.length == 71 &&
    (t.drop 7).all fun c => isDigit c || (97 ≤ c && c ≤ 102)

/-- `sorted(set(texts))`. -/
def sortedSet (texts : List Points) : List Points :=
  texts.dedup.insertionSort (· ≤ ·)

/-- `sorted` of texts. -/
def sortedTexts (texts : List Points) : List Points :=
  texts.insertionSort (· ≤ ·)

/-- A list of texts as a value. -/
def texts (ts : List Points) : Json :=
  .arr (ts.map .str)

variable (pf : Platform)

/-- `str.casefold`. -/
def casefold (t : Points) : Points :=
  t.flatMap pf.fold

/-- `str(value or default)`. -/
def textOr (value : Json) (default : String) : Points :=
  if truthy pf.py value then textOrEmpty pf.py value else Points.ofString default

/-- `str(value or "").strip()`. -/
def stripped (value : Json) : Points :=
  Points.strip (textOrEmpty pf.py value)

/-- The number of bytes of `str.encode("utf-8")`. -/
def encodedLength (t : Points) : Except Refusal ℕ :=
  match Points.utf8 t with
  | some bytes => .ok bytes.length
  | none => .error .uncaught

/-! ## Credentials -/

/-- `_SECRET_MARKERS`. -/
def secretMarkers : List String :=
  ["access_key", "api_key", "authorization", "bearer", "client_secret", "credential", "password",
    "private_key", "refresh_token", "secret", "session_token"]

/-- A key that has a marker. -/
def isMarked (key : Points) : Bool :=
  secretMarkers.any fun marker => decide (Points.ofString marker <:+: lower key)

mutual

/-- `_contains_secret_shape`. -/
def containsSecretShape (parentKey : Points) : Json → Bool
  | .arr items => isMarked parentKey || anySecretItem parentKey items
  | .obj fields => isMarked parentKey || anySecretField fields
  | _ => isMarked parentKey
  termination_by structural v => v

/-- The items of an array have the key of the array. -/
def anySecretItem (parentKey : Points) : List Json → Bool
  | [] => false
  | v :: vs => containsSecretShape parentKey v || anySecretItem parentKey vs
  termination_by structural vs => vs

/-- The fields of an object have their own keys. -/
def anySecretField : Fields → Bool
  | [] => false
  | (k, v) :: fs => containsSecretShape k v || anySecretField fs
  termination_by structural fs => fs

end

/-- A regular expression, as far as the patterns of credentials need one. -/
inductive Pattern
  | char (p : ℕ → Bool)
  | many (least : ℕ) (p : ℕ → Bool)
  | boundary
  | opt (a : Pattern)
  | seq (a b : Pattern)
  | alt (a b : Pattern)

namespace Pattern

/-- A place in a text: the character before it, and what follows. -/
abbrev Place := Option ℕ × Points

/-- The places after runs of characters of a class. -/
def runs (p : ℕ → Bool) (least : ℕ) (before : Option ℕ) : Points → List Place
  | [] => if least = 0 then [(before, [])] else []
  | c :: cs =>
    (if least = 0 then [(before, c :: cs)] else []) ++
      if p c then runs p (least - 1) (some c) cs else []

/-- The places where a match from a place may end. -/
def ends (isWord : ℕ → Bool) : Pattern → Place → List Place
  | .char p, (_, c :: cs) => if p c then [(some c, cs)] else []
  | .char _, (_, []) => []
  | .many least p, (before, rest) => runs p least before rest
  | .boundary, (before, rest) =>
    if before.any isWord != rest.head?.any isWord then [(before, rest)] else []
  | .opt a, place => place :: ends isWord a place
  | .seq a b, place => (ends isWord a place).flatMap (ends isWord b)
  | .alt a b, place => ends isWord a place ++ ends isWord b place

/-- There is a match at a place of a text or after it. -/
def matchesFrom (isWord : ℕ → Bool) (a : Pattern) (before : Option ℕ) : Points → Bool
  | [] => !(ends isWord a (before, [])).isEmpty
  | c :: cs => !(ends isWord a (before, c :: cs)).isEmpty || matchesFrom isWord a (some c) cs

/-- `re.search`. -/
def search (isWord : ℕ → Bool) (a : Pattern) (t : Points) : Bool :=
  matchesFrom isWord a none t

/-- Patterns one after the other. -/
def chain : List Pattern → Pattern
  | [] => .many 0 fun _ => false
  | a :: as => .seq a (chain as)

/-- Patterns of which one matches. -/
def choice (a : Pattern) : List Pattern → Pattern
  | [] => a
  | b :: bs => .alt a (choice b bs)

/-- A text whose characters are read in some way. -/
def literal (read : ℕ → ℕ) (s : String) : Pattern :=
  chain ((Points.ofString s).map fun c => .char fun d => read d == c)

/-- A character of some set. -/
def among (s : String) : Pattern :=
  .char fun c => (Points.ofString s).contains c

end Pattern

/-- A character where the case is ignored, as far as it is a letter of ASCII. -/
def anyCase (c : ℕ) : ℕ :=
  if 65 ≤ c ∧ c ≤ 90 then c + 32
  else if c = 0x130 ∨ c = 0x131 then 105
  else if c = 0x17f then 115
  else if c = 0x212a then 107
  else c

/-- `[A-Za-z0-9_-]`. -/
def isKeyChar (c : ℕ) : Bool :=
  isAlnum c || c == 95 || c == 45

/-- `[A-Za-z0-9+/_.~-]`. -/
def isSecretChar (c : ℕ) : Bool :=
  isAlnum c || (Points.ofString "+/_.~-").contains c

open Pattern in
/-- The patterns of `_contains_high_confidence_credential`. -/
def credentialPatterns : List Pattern :=
  let joined (a b : String) := chain [literal anyCase a, opt (among "_-"), literal anyCase b]
  [chain [literal id "-----BEGIN ",
      opt (chain [many 1 fun c => (65 ≤ c && c ≤ 90) || c == 32, among " "]),
      literal id "PRIVATE KEY-----"],
    chain [boundary, literal id "sk-", many 16 isKeyChar, boundary],
    chain [boundary, literal id "ghp_", many 20 isAlnum, boundary],
    chain [boundary, literal id "xox", among "baprs", among "-",
      many 16 fun c => isAlnum c || c == 45, boundary],
    chain [boundary,
      choice (joined "api" "key") [joined "access" "token", joined "refresh" "token",
        joined "client" "secret", literal anyCase "password"],
      many 0 Points.isSpace, among ":=", many 0 Points.isSpace, opt (among "\"'"),
      many 16 fun c => isSecretChar (anyCase c)]]

/-- A text that a pattern of credentials fits. -/
def isCredentialShaped (t : Points) : Bool :=
  credentialPatterns.any fun a => a.search pf.isWord t

mutual

/-- `_contains_high_confidence_credential`. -/
def containsCredential : Json → Bool
  | .str t => isCredentialShaped pf t
  | .arr items => anyCredentialItem items
  | .obj fields => anyCredentialField fields
  | _ => false
  termination_by structural v => v

/-- The items of an array. -/
def anyCredentialItem : List Json → Bool
  | [] => false
  | v :: vs => containsCredential v || anyCredentialItem vs
  termination_by structural vs => vs

/-- The values of an object. -/
def anyCredentialField : Fields → Bool
  | [] => false
  | (_, v) :: fs => containsCredential v || anyCredentialField fs
  termination_by structural fs => fs

end

/-! ## Parts of a manifest -/

/-- A check of the module. -/
def require (condition : Bool) (message : String) : Except Refusal Unit :=
  demand condition (.manifest (Points.ofString message))

/-- A refusal by the module. -/
def refuse {α : Type} (message : String) : Except Refusal α :=
  .error (.manifest (Points.ofString message))

/-- A check of the value of a key, when the object has the key. -/
def checkIfPresent (fields : Fields) (key : String) (check : Json → Except Refusal Unit) :
    Except Refusal Unit :=
  if has fields key then check (get fields key) else .ok ()

/-- The texts of a list, stripped and each of them once. -/
def cleanInto (maximum : ℕ) (message : String) :
    List Points → List Json → Except Refusal (List Points)
  | result, [] => .ok result
  | result, value :: values => do
    let text := stripped pf value
    require (!(text.isEmpty || maximum < text.length || result.contains text)) message
    cleanInto maximum message (result ++ [text]) values

/-- `_clean_strings`. -/
def cleanStrings (values : Json) (label : String) (maximum : ℕ := 64) :
    Except Refusal (List Points) :=
  match values with
  | .arr (value :: rest) =>
    cleanInto pf maximum ("Library " ++ label ++ " contains an invalid or duplicate value") []
      (value :: rest)
  | _ => refuse ("Library " ++ label ++ " must be a non-empty list")

/-- The scopes that `validate_library_manifest` reads. -/
def cleanScopes (values : Json) : Except Refusal (List Points) :=
  match values with
  | .arr values => do
    let scopes ← cleanInto pf 129
      "Library requested_scopes contains an invalid or duplicate value" [] values
    require (scopes.all isScope) "Library requested_scopes are invalid"
    return scopes
  | _ => refuse "Library requested_scopes must be a list"

/-- `_validate_configuration_schema`. -/
def validateConfigurationSchema (value : Json) : Except Refusal Json :=
  match value with
  | .obj fields => do
    require (isText (get fields "type") (Points.ofString "object"))
      "Library configuration_schema must be a JSON object schema"
    require (match get fields "additionalProperties" with | .bool false => true | _ => false)
      "Library configuration_schema must reject undeclared properties"
    match getOr fields "properties" (.obj []) with
    | .obj properties => do
      require (!containsSecretShape [] (.obj properties))
        "Library configuration_schema must not describe credentials or secrets"
      let length ← encodedLength (Json.dumpsSorted value)
      require (length ≤ 32 * 1024) "Library configuration_schema exceeds the size limit"
      return value
    | _ => refuse "Library configuration_schema properties must be an object"
  | _ => refuse "Library configuration_schema must be a JSON object schema"

/-- What a manifest tells of its origin. -/
structure Provenance where
  source : Points
  publisher : Points
  revision : Points

def Provenance.toJson (p : Provenance) : Json :=
  .obj [(Points.ofString "source", .str p.source), (Points.ofString "publisher", .str p.publisher),
    (Points.ofString "revision", .str p.revision)]

/-- `_validate_provenance`. -/
def validateProvenance (value : Json) : Except Refusal Provenance :=
  match value with
  | .obj fields => do
    let source := stripped pf (get fields "source")
    let publisher := stripped pf (get fields "publisher")
    let revision := stripped pf (get fields "revision")
    match pf.urlparse source with
    | none => refuse "Library provenance source is invalid"
    | some url => do
      require (oneOf url.scheme ["https", "curated"] && !url.netloc.isEmpty &&
          url.username.isEmpty && url.password.isEmpty && url.query.isEmpty &&
          url.fragment.isEmpty)
        "Library provenance source must be an HTTPS or curated URI"
      require (!publisher.isEmpty && publisher.length ≤ 160 && !revision.isEmpty &&
          revision.length ≤ 200)
        "Library provenance requires bounded publisher and revision values"
      return { source, publisher, revision }
  | _ => refuse "Library provenance must be structured"

/-! ## Bundles -/

/-- The parts of `PurePosixPath`, of a relative path. -/
def posixParts (path : Points) : List Points :=
  (path.splitOn 47).filter fun part => !part.isEmpty && part != [46]

/-- Reserved paths of `_validate_file_entry`. -/
def reservedPaths : List String :=
  [".env", ".mcp.json", ".claude/settings.local.json", ".codex/config.toml", "agents.md",
    "claude.md", "codex.md"]

/-- Reserved names of files in any directory. -/
def reservedNames : List String :=
  ["agents.md", "claude.md", "codex.md"]

/-- The text of the path of an entry. -/
def pathText (entry : Json) : Points :=
  match entry with
  | .obj fields => textOrEmpty pf.py (get fields "path")
  | _ => []

/-- `_validate_file_entry`. -/
def validateFileEntry (entry : Json) : Except Refusal Unit :=
  match entry with
  | .obj fields => do
    require (keysWithin fields ["scope", "path", "content", "allow_empty"])
      "Library bootstrap files may contain only inline non-secret content"
    require (lower (Points.strip (textOr pf (get fields "scope") "workspace")) ==
        Points.ofString "workspace")
      "Library bootstrap files must remain workspace scoped"
    let path := Points.strip (pathText pf entry)
    let parts := posixParts path
    require (!path.isEmpty && path.head? != some 47 && !path.contains 92 &&
        !parts.any (fun part => oneOf part ["", ".", ".."]) && path.length ≤ 240)
      "Library bootstrap file path must be a safe relative path"
    require (!(oneOf (casefold pf path) reservedPaths ||
        oneOf (casefold pf (parts.getLastD [])) reservedNames))
      "Library bootstrap file cannot replace worker authority or credential config"
    match get fields "content" with
    | .str content => do
      let length ← encodedLength content
      require (length ≤ 1024 * 1024) "Library bootstrap file exceeds the size limit"
    | _ => refuse "Library bootstrap files require inline UTF-8 text content"
  | _ => refuse "Library bootstrap files must be objects"

/-- The check of the files of a bundle, after files with some paths. -/
def validateFiles : List Points → List Json → Except Refusal Unit
  | _, [] => .ok ()
  | seenPaths, entry :: entries => do
    validateFileEntry pf entry
    let path := casefold pf (pathText pf entry)
    require (!seenPaths.contains path)
      "Library activation contains duplicate bootstrap file paths"
    validateFiles (path :: seenPaths) entries

/-- `LIBRARY_PROFILES`. -/
def libraryProfiles : List String :=
  ["codex-cli", "claude-code"]

/-- The value that an activation has for a profile. -/
def rawBundle (activation : Fields) (profile : Points) : Except Refusal Json :=
  match get activation "bundle", get activation "profiles" with
  | common, .null => .ok common
  | .null, .obj profiles => do
    require (keysWithin profiles libraryProfiles) "Library activation profiles are invalid"
    return (profiles.lookup profile).getD .null
  | .null, _ => refuse "Library activation profiles are invalid"
  | _, _ => refuse "Library activation must use one common bundle or profile bundles"

/-- `_activation_bundle_for_profile`. -/
def activationBundleForProfile (activation : Fields) (profile : Points) :
    Except Refusal Fields := do
  let bundle ← rawBundle activation profile
  match bundle with
  | .obj (field :: fields) => .ok (field :: fields)
  | _ => .error (.manifest
      (Points.ofString "Library activation has no bundle for profile " ++ profile))

/-- `str.rstrip(".")`. -/
def rstripDots (t : Points) : Points :=
  t.rdropWhile (· == 46)

/-- Endings of hosts that are not public. -/
def privateSuffixes : List String :=
  [".localhost", ".local", ".internal", ".lan", ".home.arpa"]

/-- `_validate_remote_mcp_url`. -/
def validateRemoteMcpUrl (value : Json) : Except Refusal Unit :=
  match pf.urlparse (stripped pf value) with
  | none => refuse "Library remote MCP URL is invalid"
  | some url => do
    require (url.scheme == Points.ofString "https" && !url.netloc.isEmpty &&
        url.username.isEmpty && url.password.isEmpty && url.query.isEmpty && url.fragment.isEmpty)
      "Library MCP adapters require a credential-free HTTPS URL"
    let hostname := rstripDots (lower (Points.strip url.hostname))
    require (!(oneOf hostname ["localhost"] ||
        privateSuffixes.any fun suffix => (Points.ofString suffix).isSuffixOf hostname))
      "Library MCP adapters cannot target local or link-private hosts"
    require (pf.isGlobal hostname != some false)
      "Library MCP adapters cannot target local or link-private hosts"

/-- The flag of a server. -/
def validateEnabled (value : Json) : Except Refusal Unit :=
  match value with
  | .bool _ => .ok ()
  | _ => refuse "Library Codex MCP enabled flag must be boolean"

/-- A timeout of a server. -/
def validateTimeout (field : String) (maximum : ℤ) (value : Json) : Except Refusal Unit :=
  let message := "Library Codex MCP " ++ field ++ " is outside the safe range"
  match value with
  | .int n =>
    -- a larger integer does not convert to a float
    if n.natAbs < 2 ^ 1024 - 2 ^ 970 then require (1 ≤ n && n ≤ maximum) message
    else .error .uncaught
  | .float t => require (pf.floatWithin t 1 maximum) message
  | _ => refuse message

/-- A server of the configuration of Codex. -/
def validateCodexServer (server : Points × Json) : Except Refusal Unit :=
  match server.2 with
  | .obj config => do
    require (isMcpServer server.1) "Library Codex MCP server configuration is invalid"
    require (keysWithin config ["url", "enabled", "startup_timeout_sec", "tool_timeout_sec"])
      "Library Codex MCP server may contain only reviewed remote fields"
    validateRemoteMcpUrl pf (get config "url")
    checkIfPresent config "enabled" validateEnabled
    checkIfPresent config "startup_timeout_sec" (validateTimeout pf "startup_timeout_sec" 300)
    checkIfPresent config "tool_timeout_sec" (validateTimeout pf "tool_timeout_sec" 3600)
  | _ => refuse "Library Codex MCP server configuration is invalid"

/-- The check of `codex_config_append`. -/
def validateCodexConfig (raw : Json) : Except Refusal Unit :=
  match raw with
  | .str raw => do
    let length ← encodedLength raw
    require (length ≤ 64 * 1024) "Library Codex MCP configuration is invalid"
    let parsed ← pf.tomlLoads raw
    match get parsed "mcp_servers" with
    | .obj servers => do
      require (keysAre parsed ["mcp_servers"])
        "Library Codex configuration may declare only remote MCP servers"
      servers.forM (validateCodexServer pf)
    | _ => refuse "Library Codex configuration may declare only remote MCP servers"
  | _ => refuse "Library Codex MCP configuration is invalid"

/-- A server of the configuration of Claude. -/
def validateClaudeServer (server : Points × Json) : Except Refusal Unit :=
  match server.2 with
  | .obj config => do
    require (isMcpServer server.1) "Library Claude MCP server configuration is invalid"
    require (keysWithin config ["type", "url"] &&
        oneOf (textOr pf (get config "type") "http") ["http", "sse"])
      "Library Claude MCP server may contain only reviewed remote fields"
    validateRemoteMcpUrl pf (get config "url")
  | _ => refuse "Library Claude MCP server configuration is invalid"

/-- The check of `claude_project_mcp`. -/
def validateClaudeConfig (raw : Json) : Except Refusal Unit :=
  match raw with
  | .obj fields =>
    match getOr fields "mcpServers" raw with
    | .obj (server :: servers) => (server :: servers).forM (validateClaudeServer pf)
    | _ => refuse "Library Claude MCP configuration requires remote servers"
  | _ => refuse "Library Claude MCP configuration is invalid"

/-- `LIBRARY_BUNDLE_KEYS`. -/
def libraryBundleKeys : List String :=
  ["claude_project_mcp", "codex_config_append", "files"]

/-- `PROFILE_BUNDLE_KEYS`. -/
def profileBundleKeys (profile : Points) : Option (List String) :=
  if profile = Points.ofString "codex-cli" then some ["codex_config_append", "files"]
  else if profile = Points.ofString "claude-code" then some ["claude_project_mcp", "files"]
  else none

/-- The files of a bundle. -/
def bundleFiles (bundle : Fields) : Except Refusal (List Json) :=
  let files := getOr bundle "files" (.arr [])
  if truthy pf.py files then
    match files with
    | .arr entries => do
      require (entries.length ≤ 128) "Library activation files are invalid"
      return entries
    | _ => refuse "Library activation files are invalid"
  else .ok []

/-- `_validate_bundle`. -/
def validateBundle (bundle : Fields) (profile : Points) : Except Refusal Unit :=
  match profileBundleKeys profile with
  | none => .error .uncaught
  | some keys => do
    demand (keysWithin bundle libraryBundleKeys && keysWithin bundle keys)
      (.manifest (Points.ofString "Library activation contains unsupported " ++ profile ++
        Points.ofString " bootstrap fields"))
    require (!containsSecretShape [] (.obj bundle))
      "Library activation must not contain credentials or secrets"
    require (!containsCredential pf (.obj bundle))
      "Library activation contains credential-shaped content"
    let files ← bundleFiles pf bundle
    validateFiles pf [] files
    checkIfPresent bundle "codex_config_append" (validateCodexConfig pf)
    checkIfPresent bundle "claude_project_mcp" (validateClaudeConfig pf)
    let length ← encodedLength (Json.dumpsSorted (.obj bundle))
    require (length ≤ 4 * 1024 * 1024) "Library activation exceeds the size limit"

/-! ## Probes and dependencies -/

/-- The health probe of an item. -/
structure Probe where
  requiredFiles : List Points
  requiredBundleKeys : List Points
  requiredMcpServers : List Points

def Probe.toJson (p : Probe) : Json :=
  .obj [(Points.ofString "type", .str (Points.ofString "bootstrap_contract")),
    (Points.ofString "required_files", texts p.requiredFiles),
    (Points.ofString "required_bundle_keys", texts p.requiredBundleKeys),
    (Points.ofString "required_mcp_servers", texts p.requiredMcpServers)]

/-- What a value yields when it is iterated. -/
def iterated (value : Json) : Except Refusal (List Json) :=
  match value with
  | .arr items => .ok items
  | .obj fields => .ok (fields.map fun f => .str f.1)
  | .str t => .ok (t.map fun c => .str [c])
  | _ => .error .uncaught

/-- The texts that a probe lists under a key. -/
def probeTexts (fields : Fields) (key : String) : Except Refusal (List Points) := do
  let items ← iterated (getOr fields key (.arr []))
  return items.map (stripped pf)

/-- `_validate_probe`. -/
def validateProbe (value : Json) : Except Refusal Probe :=
  match value with
  | .obj fields => do
    require (isText (get fields "type") (Points.ofString "bootstrap_contract"))
      "Library health_probe must use the bootstrap_contract adapter"
    require (keysWithin fields
        ["type", "required_files", "required_bundle_keys", "required_mcp_servers"])
      "Library health_probe contains unsupported fields"
    let files ← probeTexts pf fields "required_files"
    let keys ← probeTexts pf fields "required_bundle_keys"
    let servers ← probeTexts pf fields "required_mcp_servers"
    require (files.all fun item => !item.isEmpty && item.length ≤ 240)
      "Library health_probe required_files are invalid"
    require (keys.all fun item => oneOf item libraryBundleKeys)
      "Library health_probe required_bundle_keys are invalid"
    require (servers.all isMcpServer) "Library health_probe required_mcp_servers are invalid"
    require (!(files.isEmpty && keys.isEmpty && servers.isEmpty))
      "Library health_probe must verify at least one installed capability"
    return {
      requiredFiles := sortedSet files
      requiredBundleKeys := sortedSet keys
      requiredMcpServers := sortedSet servers }
  | _ => refuse "Library health_probe must use the bootstrap_contract adapter"

/-- A dependency, pinned to a version and its content. -/
structure Dependency where
  stableId : Points
  version : Points
  contentHash : Points
  scopes : List Points

def Dependency.toJson (d : Dependency) : Json :=
  .obj [(Points.ofString "stable_id", .str d.stableId),
    (Points.ofString "version", .str d.version),
    (Points.ofString "content_hash", .str d.contentHash),
    (Points.ofString "scopes", texts d.scopes)]

/-- `str(value)`. -/
def text (value : Json) : Points :=
  match value with
  | .str t => t
  | value => pf.py.toText value

/-- A dependency of an item, after dependencies on some others. -/
def validateDependency (stableId : Points) (dependencyIds : List Points) (value : Json) :
    Except Refusal Dependency :=
  match value with
  | .obj fields => do
    require (keysAre fields ["stable_id", "version", "content_hash", "scopes"])
      "Library dependencies must pin stable_id, version, content_hash, and scopes"
    let dependencyId := lower (stripped pf (get fields "stable_id"))
    let dependencyVersion := stripped pf (get fields "version")
    let dependencyHash := lower (stripped pf (get fields "content_hash"))
    require (isStableId dependencyId && isVersion dependencyVersion)
      "Library dependency identity is invalid"
    require (!(dependencyId == stableId || dependencyIds.contains dependencyId))
      "Library dependencies cannot be self-referential or duplicated"
    require (isContentHash dependencyHash) "Library dependency content_hash is invalid"
    match get fields "scopes" with
    | .arr scopes => do
      require ((scopes.map (text pf)).all isScope) "Library dependency scopes are invalid"
      return {
        stableId := dependencyId
        version := dependencyVersion
        contentHash := dependencyHash
        scopes := sortedSet (scopes.map (text pf)) }
    | _ => refuse "Library dependency scopes are invalid"
  | _ => refuse "Library dependencies must pin stable_id, version, content_hash, and scopes"

/-- The dependencies of an item, after dependencies on some others. -/
def validateDependencies (stableId : Points) :
    List Points → List Json → Except Refusal (List Dependency)
  | _, [] => .ok []
  | dependencyIds, value :: values => do
    let dependency ← validateDependency pf stableId dependencyIds value
    let rest ← validateDependencies stableId (dependency.stableId :: dependencyIds) values
    return dependency :: rest

/-! ## Manifests -/

/-- The fields that a manifest has. -/
def required : List String :=
  ["schema_version", "stable_id", "version", "content_hash", "provenance", "supported_profiles",
    "requested_scopes", "configuration_schema", "dependencies", "health_probe", "lifecycle",
    "activation"]

/-- The fields that it may have. -/
def allowedManifestFields : List String :=
  required ++ ["description", "homepage", "kind", "label", "license", "name"]

/-- `library_content_hash`. -/
def libraryContentHash (activation : Json) : Except Refusal Points :=
  match Points.utf8 (Json.dumpsSorted activation) with
  | none => .error .uncaught
  | some bytes =>
    .ok (Points.ofString "sha256:" ++ (pf.sha256 bytes).flatMap fun b =>
      [Json.hexDigit (b.toNat / 16), Json.hexDigit (b.toNat % 16)])

/-- What the validation of a manifest finds in it. -/
structure Checked where
  stableId : Points
  version : Points
  contentHash : Points
  provenance : Provenance
  supportedProfiles : List Points
  requestedScopes : List Points
  configurationSchema : Json
  dependencies : List Dependency
  healthProbe : Probe
  lifecycle : Json
  activation : Fields

/-- The activation of a manifest, whose bundles are valid for some profiles. -/
def validateActivation (value : Json) (profiles : List Points) : Except Refusal Fields :=
  match value with
  | .obj activation => do
    require (isText (get activation "type") (Points.ofString "bootstrap_bundle"))
      "Library activation must use a bootstrap_bundle profile adapter"
    require (keysWithin activation ["type", "bundle", "profiles"])
      "Library activation contains unsupported fields"
    profiles.forM fun profile => do
      let bundle ← activationBundleForProfile activation profile
      validateBundle pf bundle profile
    return activation
  | _ => refuse "Library activation must use a bootstrap_bundle profile adapter"

/-- The lifecycle of a manifest. -/
def validateLifecycle (value : Json) : Except Refusal Json :=
  match value with
  | .obj fields => do
    require (keysAre fields ["upgrade", "remove"] &&
        isText (get fields "upgrade") (Points.ofString "replace_same_stable_id") &&
        isText (get fields "remove") (Points.ofString "restore_prior_bundle"))
      "Library lifecycle must declare safe upgrade and removal behavior"
    return value
  | _ => refuse "Library lifecycle must declare safe upgrade and removal behavior"

/-- The list of the dependencies of a manifest. -/
def listDependencies (value : Json) (stableId : Points) : Except Refusal (List Dependency) :=
  match value with
  | .arr values => do
    require (values.length ≤ 32) "Library dependencies must be a bounded list"
    validateDependencies pf stableId [] values
  | _ => refuse "Library dependencies must be a bounded list"

/-- The checks of the fields of a manifest. -/
def checkManifest (manifest : Fields) : Except Refusal Checked := do
  require (isNumber pf.py (get manifest "schema_version") 1)
    "Library manifest schema_version must be 1"
  let stableId := lower (stripped pf (get manifest "stable_id"))
  let version := stripped pf (get manifest "version")
  require (isStableId stableId) "Library stable_id is invalid"
  require (isVersion version) "Library version must be semantic versioning"
  let profiles ← cleanStrings pf (get manifest "supported_profiles") "supported_profiles"
  require (profiles.all fun profile => oneOf profile libraryProfiles)
    "Library supported_profiles contains an unsupported worker profile"
  let scopes ← cleanScopes pf (get manifest "requested_scopes")
  let provenance ← validateProvenance pf (get manifest "provenance")
  let configurationSchema ← validateConfigurationSchema (get manifest "configuration_schema")
  let activation ← validateActivation pf (get manifest "activation") profiles
  let contentHash ← libraryContentHash pf (.obj activation)
  require (lower (stripped pf (get manifest "content_hash")) == contentHash)
    "Library content_hash does not match the reviewed activation content"
  let dependencies ← listDependencies pf (get manifest "dependencies") stableId
  let lifecycle ← validateLifecycle (get manifest "lifecycle")
  let healthProbe ← validateProbe pf (get manifest "health_probe")
  return {
    stableId
    version
    contentHash
    provenance
    supportedProfiles := sortedTexts profiles
    requestedScopes := sortedTexts scopes
    configurationSchema
    dependencies
    healthProbe
    lifecycle
    activation }

/-- The fields that come back normalized. -/
def Checked.fields (c : Checked) : Fields :=
  [(Points.ofString "schema_version", .int 1),
    (Points.ofString "stable_id", .str c.stableId),
    (Points.ofString "version", .str c.version),
    (Points.ofString "content_hash", .str c.contentHash),
    (Points.ofString "provenance", c.provenance.toJson),
    (Points.ofString "supported_profiles", texts c.supportedProfiles),
    (Points.ofString "requested_scopes", texts c.requestedScopes),
    (Points.ofString "configuration_schema", c.configurationSchema),
    (Points.ofString "dependencies", .arr (c.dependencies.map Dependency.toJson)),
    (Points.ofString "health_probe", c.healthProbe.toJson),
    (Points.ofString "lifecycle", c.lifecycle),
    (Points.ofString "activation", .obj c.activation)]

/-- The message for a manifest with missing fields. -/
def missingMessage (manifest : Fields) : Points :=
  let missing := (required.filter fun key => !has manifest key).map Points.ofString
  Points.ofString "Library manifest is missing required fields: " ++
    (Points.ofString ", ").intercalate (sortedTexts missing)

/-- `validate_library_manifest`, with what it finds. -/
def validated (manifest : Json) : Except Refusal (Checked × Fields) :=
  match manifest with
  | .obj fields => do
    demand (required.all (has fields)) (.manifest (missingMessage fields))
    require (keysWithin fields allowedManifestFields)
      "Library manifest contains unsupported or potentially secret fields"
    let found ← checkManifest pf fields
    let normalized := update fields found.fields
    require (!containsCredential pf (.obj normalized))
      "Library manifest contains credential-shaped content"
    let length ← encodedLength (Json.dumpsSorted (.obj normalized))
    require (length ≤ 5 * 1024 * 1024) "Library manifest exceeds the size limit"
    return (found, normalized)
  | _ => refuse "Library manifest must be an object"

/-- `validate_library_manifest`. -/
def validateLibraryManifest (manifest : Json) : Except Refusal Fields :=
  (validated pf manifest).map (·.2)

end GlassHive.LibraryManifests
