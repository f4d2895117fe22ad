import RlStatsApi.DecimalText
import RlStatsApi.Error

/-!
# The destination of the relay

A destination is given as a URL, or bare and then read as a `ws` URL. The
target takes its host, port and path. A URL's reader reports no port when
the written one is the default of the scheme, so that a bare destination
with the port 80 looks like one without a port. The query is not taken over.
-/

set_option autoImplicit false

namespace RlStatsApi.RelayTarget
open RlStatsApi.TextLines RlStatsApi.DecimalText RlStatsApi.Error

structure WsTarget where
  scheme : Text
  host : Text
  port : U16
  path : Text
  deriving DecidableEq

def schemeEnd : Text := [':','/','/']

def WsTarget.toUrl (t : WsTarget) : Text :=
  t.scheme++schemeEnd++t.host++ ':'::Nat.toDigits 10 t.port.val++t.path

/-- What the relay asks of a URL that was read. -/
structure Url where
  scheme : Text
  hostStr : Option Text
  port : Option U16
  path : Text

def ws : Text := ['w','s']
def wss : Text := ['w','s','s']
def http : Text := ['h','t','t','p']
def https : Text := ['h','t','t','p','s']

def mapWsScheme (scheme : Text) : Except Text Text :=
  if scheme = ws ∨ scheme = http then .ok ws
  else if scheme = wss ∨ scheme = https then .ok wss
  else .error ("unsupported --ws-host scheme '".toList++scheme++
    "' (use ws, wss, http, or https)".toList)

def defaultPortForWsScheme (scheme : Text) : U16 := if scheme = wss then 443 else 80

def bareDefaultPort : U16 := 49122

def normalizeWsPath (path : Text) : Text :=
  if path = [] ∨ path = ['/'] then ['/']
  else if path.head? = some '/' then path
  else '/'::path

def HasScheme (s : Text) : Prop := schemeEnd <:+: s

instance (s : Text) : Decidable (HasScheme s) := inferInstanceAs (Decidable (_ <:+: _))

/-- The text that is read as a URL. -/
def urlText (trimmed : Text) : Text :=
  if HasScheme trimmed then trimmed else ws++schemeEnd++trimmed

def targetPort (override port : Option U16) (explicit : Bool) (scheme : Text) : U16 :=
  match override, port, explicit with
  | some port, _, _ => port
  | none, some port, _ => port
  | none, none, true => defaultPortForWsScheme scheme
  | none, none, false => bareDefaultPort

section Build

-- The reader of URLs, with the text of its failure.
variable (parse : Text → Except Text Url)

def buildWsTarget (wsHostInput : Text) (wsPortOverride : Option U16)
    (wsPathOverride : Option Text) : Except Text WsTarget :=
  let trimmed := trim wsHostInput
  if trimmed = [] then .error "--ws-host cannot be empty".toList
  else
    match parse (urlText trimmed) with
    | .error e => .error e
    | .ok url =>
      match mapWsScheme url.scheme with
      | .error e => .error e
      | .ok scheme =>
        match url.hostStr with
        | none => .error "--ws-host must include a hostname".toList
        | some host => .ok {
            scheme := scheme
            host := host
            port := targetPort wsPortOverride url.port (decide (HasScheme trimmed)) scheme
            path := normalizeWsPath (wsPathOverride.getD url.path)}

theorem buildWsTarget_iff (input : Text) (port : Option U16) (path : Option Text) (t : WsTarget) :
    buildWsTarget parse input port path = .ok t ↔ trim input ≠ [] ∧ ∃ url scheme host,
      parse (urlText (trim input)) = .ok url ∧ mapWsScheme url.scheme = .ok scheme ∧
      url.hostStr = some host ∧
      t = ⟨scheme,host,targetPort port url.port (decide (HasScheme (trim input))) scheme,
        normalizeWsPath (path.getD url.path)⟩ := by
  simp only [buildWsTarget]
  by_cases hn : trim input = []
  · simp [hn]
  rw [if_neg hn]
  cases hu : parse (urlText (trim input)) with
  | error e => simp
  | ok url =>
    cases hs : mapWsScheme url.scheme with
    | error e => simp [hs]
    | ok scheme =>
      cases hh : url.hostStr with
      | none => simp [hh, hs]
      | some host => simp [hn, hh, hs, eq_comm]

end Build

theorem normalizeWsPath_slash (path : Text) (h : path.head? = some '/') :
    normalizeWsPath path = path := by
  unfold normalizeWsPath
  split_ifs with hp
  · rcases hp with rfl | rfl
    · cases h
    · rfl
  · rfl

/-! ## Destinations -/

/-- What a destination states; the path is empty or begins with a slash. -/
structure Parts where
  scheme : Option Text
  userinfo : Option Text
  host : Text
  port : Option Text
  path : Text
  query : Option Text
  fragment : Option Text

namespace Parts

variable (d : Parts)

def body : Text :=
  d.userinfo.elim [] (·++['@'])++d.host++d.port.elim [] (':'::·)++d.path++
    d.query.elim [] ('?'::·)++d.fragment.elim [] ('#'::·)

def text : Text := d.scheme.elim [] (·++schemeEnd)++d.body

/-- The scheme in lower case; a bare destination is read with `ws`. -/
def schemeName : Text := (d.scheme.getD ws).map Char.toLower

/-- The port that is written; there may be nothing after the colon. -/
def writtenPort : Option ℕ := d.port.bind parseDigits

end Parts

/-- The port that a scheme stands for by itself. -/
def schemePort (scheme : Text) : ℕ := if scheme = wss ∨ scheme = https then 443 else 80

/-- A bare destination or a URL of the schemes that the relay knows. -/
structure Destination extends Parts where
  known : toParts.schemeName ∈ [ws,wss,http,https]
  bare : scheme = none → ¬ HasScheme toParts.body

/-- The forms in which a URL's reader gives hosts, paths and queries. -/
structure Forms where
  host : Text → Text
  path : Text → Text
  query : Text → Text

/-- A destination as its URL is read: the port is absent when none is written
and when it is the scheme's own. The path begins with a slash, and neither it
nor the host has a question mark. -/
structure ReadAs (forms : Forms) (d : Destination) (url : Url) : Prop where
  scheme : url.scheme = d.schemeName
  host : url.hostStr = some (forms.host d.host)
  port : url.port.map Fin.val = d.writtenPort.filter (fun p => decide (p ≠ schemePort d.schemeName))
  path : url.path = forms.path d.path
  slash : url.path.head? = some '/'
  path_mark : '?' ∉ url.path
  host_mark : '?' ∉ forms.host d.host

/-- The port where none is written. -/
def impliedPort (d : Destination) : ℕ :=
  if d.scheme = none then bareDefaultPort.val else schemePort d.schemeName

structure Keeps (forms : Forms) (d : Destination) (t : WsTarget) : Prop where
  host : t.host = forms.host d.host
  port : t.port.val = d.writtenPort.getD (impliedPort d)
  path : t.path = forms.path d.path
  query : ∀ q, d.query = some q → ∃ s, t.toUrl = s++ '?'::forms.query q

theorem urlText_destination (d : Destination) :
    urlText d.text = d.scheme.getD ws++schemeEnd++d.body ∧
      (HasScheme d.text ↔ d.scheme ≠ none) := by
  cases hs : d.scheme with
  | none =>
    have ht : d.text = d.body := by simp [Parts.text, hs]
    have hb : ¬ HasScheme d.text := by
      rw [ht]
      exact d.bare hs
    exact ⟨by rw [urlText, if_neg hb, ht]; rfl,by simp [hb]⟩
  | some s =>
    have ht : d.text = s++schemeEnd++d.body := by simp [Parts.text, hs]
    have hb : HasScheme d.text := ⟨s,d.body,ht.symm⟩
    exact ⟨by rw [urlText, if_pos hb, ht]; rfl,by simp [hb]⟩

theorem mapWsScheme_known (d : Destination) (scheme : Text)
    (h : mapWsScheme d.schemeName = .ok scheme) :
    (scheme = ws ∨ scheme = wss) ∧ (defaultPortForWsScheme scheme).val = schemePort d.schemeName := by
  have hk := d.known
  simp only [List.mem_cons, List.not_mem_nil, or_false] at hk
  rcases hk with hk | hk | hk | hk <;> rw [hk] at h ⊢ <;> cases h <;> decide

theorem mark_not_mem_digits (n : ℕ) : '?' ∉ Nat.toDigits 10 n := by
  intro h
  exact absurd (Nat.isDigit_of_mem_toDigits (by decide) (by decide) h) (by decide)

theorem mark_not_mem_toUrl (t : WsTarget) (hs : t.scheme = ws ∨ t.scheme = wss) (hh : '?' ∉ t.host)
    (hp : '?' ∉ t.path) : '?' ∉ t.toUrl := by
  have hd := mark_not_mem_digits t.port.val
  have he : '?' ∉ t.scheme++schemeEnd := by
    rcases hs with hs | hs <;> rw [hs] <;> decide
  have hc : '?' ≠ ':' := by decide
  simp only [WsTarget.toUrl, List.mem_append, List.mem_cons, not_or] at he ⊢
  exact ⟨⟨⟨⟨he.1,he.2⟩,hh⟩,hc,hd⟩,hp⟩

theorem targetPort_val (port : Option U16) (explicit : Bool) (scheme : Text) :
    (targetPort none port explicit scheme).val = (port.map Fin.val).getD
      (if explicit = true then (defaultPortForWsScheme scheme).val else bareDefaultPort.val) := by
  cases port with
  | some p => rfl
  | none => cases explicit <;> rfl

/-- Overlooking the scheme's own port matters for a bare destination only,
where the implied port is another. -/
theorem overlooked_port_iff (d : Destination) :
    (d.writtenPort.filter (fun p => decide (p ≠ schemePort d.schemeName))).getD (impliedPort d) =
      d.writtenPort.getD (impliedPort d) ↔ ¬ (d.scheme = none ∧ d.writtenPort = some 80) := by
  cases hw : d.writtenPort with
  | none => simp
  | some p =>
    by_cases hs : d.scheme = none
    · have hn : schemePort d.schemeName = 80 := by
        rw [Parts.schemeName, hs]
        decide
      have hi : impliedPort d = 49122 := by
        rw [impliedPort, if_pos hs]
        rfl
      by_cases hp : p = 80
      · simp [Option.filter_some, hn, hi, hs, hp]
      · simp [Option.filter_some, hn, hp]
    · by_cases hp : p = schemePort d.schemeName
      · simp [Option.filter_some, impliedPort, hs, hp]
      · simp [Option.filter_some, hs, hp]

section Relay

variable {parse : Text → Except Text Url} {forms : Forms} {d : Destination} {input : Text}
variable {t : WsTarget} (hread : ∀ url, parse (d.scheme.getD ws++schemeEnd++d.body) = .ok url →
  ReadAs forms d url) (hin : trim input = d.text)
  (h : buildWsTarget parse input none none = .ok t)
include hread hin h

/-- The target of a destination, in terms of what the destination states. -/
theorem target_of_destination : (t.scheme = ws ∨ t.scheme = wss) ∧ t.host = forms.host d.host ∧
    t.port.val = (d.writtenPort.filter (fun p => decide (p ≠ schemePort d.schemeName))).getD
      (impliedPort d) ∧
    t.path = forms.path d.path ∧ '?' ∉ t.toUrl := by
  obtain ⟨hu,he⟩ := urlText_destination d
  obtain ⟨_,url,scheme,host,hp,hm,hh,rfl⟩ := (buildWsTarget_iff parse input none none t).mp h
  rw [hin, hu] at hp
  have r := hread url hp
  have hpath := normalizeWsPath_slash url.path r.slash
  rw [r.scheme] at hm
  obtain ⟨hs,hdefault⟩ := mapWsScheme_known d scheme hm
  rw [r.host] at hh
  cases hh
  refine ⟨hs,rfl,?_,hpath.trans r.path,?_⟩
  · rw [targetPort_val, r.port, hdefault, hin, impliedPort]
    by_cases hn : d.scheme = none <;> simp [he, hn]
  · refine mark_not_mem_toUrl _ hs r.host_mark ?_
    change '?' ∉ normalizeWsPath url.path
    rw [hpath]
    exact r.path_mark

/-- The target keeps what the destination states unless that is a query, or
the port 80 of a bare destination. -/
theorem target_keeps_iff :
    Keeps forms d t ↔ ¬ (d.scheme = none ∧ d.writtenPort = some 80) ∧ d.query = none := by
  obtain ⟨_,hh,hport,hpath,hmark⟩ := target_of_destination hread hin h
  rw [← overlooked_port_iff d, ← hport]
  constructor
  · intro k
    refine ⟨k.port,?_⟩
    cases hq : d.query with
    | none => rfl
    | some q =>
      obtain ⟨s,hs⟩ := k.query q hq
      rw [hs] at hmark
      exact absurd (by simp) hmark
  · rintro ⟨hp,hq⟩
    refine ⟨hh,hp,hpath,?_⟩
    intro q he
    rw [hq] at he
    cases he

end Relay

/-- A destination without user information and fragment. -/
def plainDestination (scheme : Option Text) (host : Text) (port : Option Text) (path : Text)
    (query : Option Text) : Parts := ⟨scheme,none,host,port,path,query,none⟩

def exampleHost : Text := "example.com".toList

/-- A reader that knows three URLs of one host. -/
def readExample (text : Text) : Except Text Url :=
  if text = "ws://example.com:80".toList then .ok ⟨ws,some exampleHost,none,['/']⟩
  else if text = "wss://example.com/ws?a=1".toList then
    .ok ⟨wss,some exampleHost,none,"/ws".toList⟩
  else if text = "http://Example.com:8080/ws".toList then
    .ok ⟨http,some exampleHost,some 8080,"/ws".toList⟩
  else .error "invalid domain character".toList

def exampleForms : Forms :=
  ⟨fun s => s.map Char.toLower,fun s => if s = [] then ['/'] else s,id⟩

def urlWithPort : Destination :=
  ⟨plainDestination (some http) "Example.com".toList (some "8080".toList) "/ws".toList none,
    by decide,by intro h; cases h⟩

theorem url_with_port_kept : ∃ t, buildWsTarget readExample
    " http://Example.com:8080/ws ".toList none none = .ok t ∧ Keeps exampleForms urlWithPort t := by
  have hb : buildWsTarget readExample " http://Example.com:8080/ws ".toList none none =
      .ok ⟨ws,exampleHost,8080,"/ws".toList⟩ := rfl
  refine ⟨_,hb,(target_keeps_iff ?_ rfl hb).mpr ⟨by decide,rfl⟩⟩
  intro url hu
  cases hu
  exact ⟨rfl,rfl,rfl,rfl,rfl,by decide,by decide⟩

def barePort80 : Destination :=
  ⟨plainDestination none exampleHost (some "80".toList) [] none,by decide,by decide⟩

def urlWithQuery : Destination :=
  ⟨plainDestination (some wss) exampleHost none "/ws".toList (some "a=1".toList),by decide,
    by intro h; cases h⟩

/-- The written port 80 becomes 49122, and the query is gone. -/
theorem port_80_and_query_lost :
    (∀ url, readExample (ws++schemeEnd++barePort80.body) = .ok url →
      ReadAs exampleForms barePort80 url) ∧
    (∀ url, readExample (wss++schemeEnd++urlWithQuery.body) = .ok url →
      ReadAs exampleForms urlWithQuery url) ∧
    (∃ t, buildWsTarget readExample "example.com:80".toList none none = .ok t ∧
      t.toUrl = "ws://example.com:49122/".toList ∧ ¬ Keeps exampleForms barePort80 t) ∧
    ∃ t, buildWsTarget readExample "wss://example.com/ws?a=1".toList none none = .ok t ∧
      t.toUrl = "wss://example.com:443/ws".toList ∧ ¬ Keeps exampleForms urlWithQuery t := by
  refine ⟨?_,?_,⟨⟨ws,exampleHost,49122,['/']⟩,rfl,rfl,?_⟩,⟨wss,exampleHost,443,"/ws".toList⟩,rfl,
    rfl,?_⟩
  · intro url hu
    cases hu
    exact ⟨rfl,rfl,rfl,rfl,rfl,by decide,by decide⟩
  · intro url hu
    cases hu
    exact ⟨rfl,rfl,rfl,rfl,rfl,by decide,by decide⟩
  · intro k
    exact absurd k.port (by decide)
  · intro k
    obtain ⟨s,hs⟩ := k.query _ rfl
    have hm : '?' ∈ "wss://example.com:443/ws".toList := by
      rw [show "wss://example.com:443/ws".toList = _ from hs]
      simp
    exact absurd hm (by decide)

end RlStatsApi.RelayTarget
