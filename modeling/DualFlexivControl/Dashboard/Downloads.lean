/-
The download server of the dashboard, `dashboard/downloads.py`.

Finished videos are streamed by a small server of their own. It has no directory to serve from: a
file is published by registering it, and its URL holds a token and the name that the browser is to
save under. What a caller proposes for a name is reduced to one that can stand in a header and in a
path ([`safe_filename_safe`]).

[`downloads_served`] is about any order of registrations and requests, over files that may come
and go: whatever the request looks like, a reply with a body is the content of a file that was
registered; the URL of every registration reaches its own file from then on; and a file that is
registered again under the same name gets the same URL. The tokens are the library's random ones,
each new where it is drawn.
-/
import Mathlib.Data.List.Basic
import Mathlib.Data.List.Infix
import Mathlib.Data.List.TakeWhile
import DualFlexivControl.Lib.Runs

set_option autoImplicit false

namespace DualFlexivControl.Dashboard.Downloads

abbrev Text := List Char

/-! ## File names -/

/-- `Path(filename).name`: the last component, where `.` is none. -/
def path_name (path : Text) : Text :=
  ((path.splitOn '/').filter fun part => part ≠ [] ∧ part ≠ ['.']).getLastD []

/-- `[A-Za-z0-9._-]` -/
def safe_char (c : Char) : Bool := c.isAlphanum || c == '.' || c == '_' || c == '-'

/-- `_SAFE_NAME_RE.sub("-", name)`: a run of other characters is one dash. -/
def squash : Bool → Text → Text
  | _, [] => []
  | inside, c :: rest =>
    if safe_char c then c :: squash false rest
    else if inside then squash true rest
    else '-' :: squash true rest

/-- `.strip(".-")` -/
def strip (name : Text) : Text :=
  ((name.dropWhile fun c => c == '.' || c == '-').reverse.dropWhile
    fun c => c == '.' || c == '-').reverse

/-- `re.sub(r"-+\.", ".", name)`, with the dashes that have been read. -/
def dash_dot : ℕ → Text → Text
  | dashes, [] => List.replicate dashes '-'
  | dashes, c :: rest =>
    if c = '-' then dash_dot (dashes + 1) rest
    else if c = '.' then '.' :: dash_dot 0 rest
    else List.replicate dashes '-' ++ c :: dash_dot 0 rest

/-- `_safe_filename` -/
def safe_filename (filename : Text) : Text :=
  let name := dash_dot 0 (strip (squash false (path_name filename)))
  if name = [] then "download".toList else name

def hex_digit (n : ℕ) : Char := "0123456789ABCDEF".toList.getD n '0'

/-- `quote(name, safe="")` -/
def quote (name : Text) : Text :=
  name.flatMap fun c =>
    if safe_char c || c == '~' then [c]
    else (String.utf8EncodeChar c).flatMap fun byte =>
      ['%', hex_digit (byte.toNat / 16), hex_digit (byte.toNat % 16)]

/-! ## The registry -/

structure PublishedFile where
  path : Text
  filename : Text
  content_type : Text
  deriving DecidableEq, Repr

/-- What the server finds of the files at some moment. -/
structure Files where
  resolve : Text → Option Text
  isfile : Text → Bool
  read : Text → Option (List UInt8)

inductive RegisterError
  | file_not_found
  | not_a_regular_file
  deriving DecidableEq, Repr

/-- `DownloadServer`: the port, and the two registries. -/
structure Server where
  port : ℕ
  by_token : List (Text × PublishedFile)
  token_by_file : List ((Text × Text) × Text)

/-- The part of a URL after the host. -/
def target_of (token safe_name : Text) : Text :=
  "/download/".toList ++ token ++ '/' :: quote safe_name

def origin (port : ℕ) : Text := s!"http://127.0.0.1:{port}".toList

/-- `content_type or mimetypes.guess_type(safe_name)[0] or "application/octet-stream"` -/
def content_type_of (guess_type : Text → Option Text) (content_type : Option Text)
    (safe_name : Text) : Text :=
  ((content_type.filter (· ≠ [])).or ((guess_type safe_name).filter (· ≠ []))).getD
    "application/octet-stream".toList

/-- `register`, with the token it draws if it needs one. -/
def register (guess_type : Text → Option Text) (server : Server) (files : Files) (token : Text)
    (path filename : Text) (content_type : Option Text) : Except RegisterError (Server × Text) :=
  match files.resolve path with
  | none => .error .file_not_found
  | some resolved =>
    if !files.isfile resolved then .error .not_a_regular_file
    else
      let safe_name := safe_filename filename
      match server.token_by_file.lookup (resolved, safe_name) with
      | some token => .ok (server, origin server.port ++ target_of token safe_name)
      | none => .ok
        ({ server with
            by_token := (token, ⟨resolved, safe_name,
              content_type_of guess_type content_type safe_name⟩) :: server.by_token
            token_by_file := ((resolved, safe_name), token) :: server.token_by_file },
          origin server.port ++ target_of token safe_name)

/-! ## Requests -/

/-- `scheme_chars` of `urllib.parse` -/
def scheme_char (c : Char) : Bool := c.isAlphanum || c == '+' || c == '-' || c == '.'

/-- The scheme that a URL begins with is dropped. -/
def drop_scheme (url : Text) : Text :=
  let before := url.takeWhile (· ≠ ':')
  if before.length < url.length && (before.head?.any Char.isAlpha) && before.all scheme_char then
    url.drop (before.length + 1)
  else url

/-- `urlsplit(url).path`; a host that it does not like is a `ValueError`. -/
def urlsplit_path (netloc_ok : Text → Bool) (url : Text) : Option Text :=
  let url := (url.dropWhile fun c => c.toNat ≤ 32).filter fun c =>
    c ≠ '\t' ∧ c ≠ '\r' ∧ c ≠ '\n'
  let url := drop_scheme url
  let hosted := url.take 2 = ['/', '/']
  let outside := fun c => c ≠ '/' ∧ c ≠ '?' ∧ c ≠ '#'
  let netloc := if hosted then (url.drop 2).takeWhile outside else []
  let url := if hosted then (url.drop 2).dropWhile outside else url
  if netloc ≠ [] ∧ !netloc_ok netloc then none
  else some ((url.takeWhile (· ≠ '#')).takeWhile (· ≠ '?'))

/-- `.strip("/").split("/")` -/
def path_parts (path : Text) : List Text :=
  (((path.dropWhile (· == '/')).reverse.dropWhile (· == '/')).reverse).splitOn '/'

/-- The token that a request's path names, or the empty one. -/
def requested_token (path : Text) : Text :=
  match path_parts path with
  | head :: token :: _ => if head = "download".toList then token else []
  | _ => []

/-- A reply with status 200; the body is left out for `HEAD`. -/
structure Reply where
  content_type : Text
  content_length : ℕ
  content_disposition : Text
  body : Option (List UInt8)
  deriving DecidableEq, Repr

/-- Without a reply the handler has raised, and the connection closes. -/
inductive Response
  | closed
  | not_found (message : String)
  | ok (reply : Reply)
  deriving DecidableEq, Repr

def disposition (filename : Text) : Text :=
  "attachment; filename=\"".toList ++ filename ++ ['"']

def reply_with (item : PublishedFile) (send_body : Bool) (content : List UInt8) : Reply where
  content_type := item.content_type
  content_length := content.length
  content_disposition := disposition item.filename
  body := if send_body then some content else none

/-- `_serve` -/
def serve (netloc_ok : Text → Bool) (server : Server) (files : Files) (send_body : Bool)
    (target : Text) : Response :=
  match urlsplit_path netloc_ok target with
  | none => .closed
  | some path =>
    match server.by_token.lookup (requested_token path) with
    | none => .not_found "download not found"
    | some item =>
      match files.read item.path with
      | none => .not_found "download no longer exists"
      | some content => .ok (reply_with item send_body content)

/-! ## Safe names -/

/-- A name that can stand between quotes in a header and as a component of a path, and is neither
hidden nor cut off. -/
structure Safe (name : Text) : Prop where
  ne_nil : name ≠ []
  chars : ∀ c ∈ name, safe_char c = true
  first : ∀ c, name.head? = some c → c ≠ '.' ∧ c ≠ '-'
  last : ∀ c, name.getLast? = some c → c ≠ '.' ∧ c ≠ '-'

/-- After the substitution every character is one of those that a name may have. -/
theorem squash_chars (inside : Bool) (name : Text) :
    ∀ c ∈ squash inside name, safe_char c = true := by
  induction name generalizing inside with
  | nil => exact fun c hc => absurd hc List.not_mem_nil
  | cons d rest ih =>
    intro c hc
    unfold squash at hc
    by_cases hd : safe_char d = true
    · rw [if_pos hd] at hc
      rcases List.mem_cons.1 hc with rfl | hc
      · exact hd
      · exact ih false c hc
    · rw [if_neg hd] at hc
      cases inside with
      | true => exact ih true c hc
      | false =>
        rcases List.mem_cons.1 hc with rfl | hc
        · decide
        · exact ih true c hc

/-- The characters that `strip` takes from the ends. -/
def edge (c : Char) : Bool := c == '.' || c == '-'

/-- A character at the end of a stripped name is neither a dot nor a dash. -/
theorem edge_false {c : Char} (h : edge c = false) : c ≠ '.' ∧ c ≠ '-' := by
  unfold edge at h
  rw [Bool.or_eq_false_iff, beq_eq_false_iff_ne, beq_eq_false_iff_ne] at h
  exact h

/-- Stripping takes from the front and, on the reversed text, from the end. -/
theorem strip_eq (name : Text) :
    strip name = ((name.dropWhile edge).reverse.dropWhile edge).reverse := rfl

/-- Stripping only takes characters away. -/
theorem mem_of_mem_strip {name : Text} {c : Char} (h : c ∈ strip name) : c ∈ name := by
  rw [strip_eq, List.mem_reverse] at h
  have hinner := (List.dropWhile_sublist edge).subset h
  rw [List.mem_reverse] at hinner
  exact (List.dropWhile_sublist edge).subset hinner

/-- The last character of a stripped name is none of those that were stripped. -/
theorem strip_last {name : Text} {c : Char} (h : (strip name).getLast? = some c) :
    edge c = false := by
  rw [strip_eq, List.getLast?_reverse] at h
  exact Bool.eq_false_iff.2 fun hedge =>
    absurd (List.head?_dropWhile_not edge _) (by rw [h]; simp [hedge])

/-- Nor is the first one, which the second pass leaves in its place. -/
theorem strip_first {name : Text} {c : Char} (h : (strip name).head? = some c) :
    edge c = false := by
  -- dropping at the end leaves the first character, if it leaves any
  have hprefix : strip name <+: name.dropWhile edge := by
    rw [strip_eq, ← List.reverse_suffix, List.reverse_reverse]
    exact List.dropWhile_suffix edge
  have hfirst : (name.dropWhile edge).head? = some c := by
    obtain ⟨rest, hrest⟩ := hprefix
    rw [← hrest, List.head?_append, h]
    rfl
  exact Bool.eq_false_iff.2 fun hedge =>
    absurd (List.head?_dropWhile_not edge _) (by rw [hfirst]; simp [hedge])

/-- Dropping dashes before a dot brings in no new character, so what was safe before it is safe
after it. -/
theorem dash_dot_chars (dashes : ℕ) (name : Text) (h : ∀ c ∈ name, safe_char c = true) :
    ∀ c ∈ dash_dot dashes name, safe_char c = true := by
  have hdash : ∀ n, ∀ c ∈ List.replicate n '-', safe_char c = true := by
    intro n c hc
    rw [List.eq_of_mem_replicate hc]
    decide
  induction name generalizing dashes with
  | nil => exact hdash dashes
  | cons d rest ih =>
    have hrest := fun c hc => h c (List.mem_cons_of_mem _ hc)
    unfold dash_dot
    intro c hc
    split at hc
    · exact ih (dashes + 1) hrest c hc
    · split at hc
      · rcases List.mem_cons.1 hc with rfl | hc
        · decide
        · exact ih 0 hrest c hc
      · rcases List.mem_append.1 hc with hc | hc
        · exact hdash dashes c hc
        · rcases List.mem_cons.1 hc with rfl | hc
          · exact h c List.mem_cons_self
          · exact ih 0 hrest c hc

/-- Only dashes before a dot go, so the last character stays if it is no dash. -/
theorem dash_dot_last (dashes : ℕ) {name : Text} {c : Char} (hlast : name.getLast? = some c)
    (hc : c ≠ '-') : (dash_dot dashes name).getLast? = some c := by
  induction name generalizing dashes with
  | nil => cases hlast
  | cons d rest ih =>
    cases rest with
    | nil =>
      rw [List.getLast?_singleton] at hlast
      obtain rfl := Option.some.inj hlast
      unfold dash_dot
      rw [if_neg hc]
      split
      · rename_i hdot
        rw [hdot]
        rfl
      · exact List.getLast?_concat
    | cons e rest =>
      rw [List.getLast?_cons_cons] at hlast
      unfold dash_dot
      split
      · exact ih _ hlast
      · split
        · rw [List.getLast?_cons, ih _ hlast]
          rfl
        · rw [List.getLast?_append, List.getLast?_cons, ih _ hlast]
          rfl

/-- The first character stays, as it is not a dash that could be dropped. -/
theorem dash_dot_first {name : Text} {c : Char} (hfirst : name.head? = some c)
    (hedge : edge c = false) : (dash_dot 0 name).head? = some c := by
  cases name with
  | nil => cases hfirst
  | cons d rest =>
    obtain rfl := Option.some.inj hfirst
    obtain ⟨hdot, hdash⟩ := edge_false hedge
    unfold dash_dot
    rw [if_neg hdash, if_neg hdot]
    rfl

/-- What is said of the character at an end, once it is known which one it is. -/
theorem at_end {found : Option Char} {d : Char} (hfound : found = some d)
    (hd : d ≠ '.' ∧ d ≠ '-') : ∀ c, found = some c → c ≠ '.' ∧ c ≠ '-' := by
  intro c hc
  rw [hfound] at hc
  obtain rfl := Option.some.inj hc
  exact hd

/-- The name that is used where nothing is left of the proposed one. -/
theorem download_safe : Safe "download".toList := by
  have hchars : "download".toList.all safe_char = true := by decide
  have hfirst : "download".toList.head? = some 'd' := by decide
  have hlast : "download".toList.getLast? = some 'd' := by decide
  exact ⟨by decide, List.all_eq_true.1 hchars, at_end hfirst (by decide), at_end hlast (by decide)⟩

/-- Whatever is proposed for a name, the one that is used is safe. -/
theorem safe_filename_safe (filename : Text) : Safe (safe_filename filename) := by
  unfold safe_filename
  set stripped := strip (squash false (path_name filename)) with hstripped
  have hchars : ∀ c ∈ stripped, safe_char c = true := fun c hc =>
    squash_chars false _ c (mem_of_mem_strip hc)
  show Safe (if dash_dot 0 stripped = [] then _ else dash_dot 0 stripped)
  split
  · exact download_safe
  · rename_i hname
    have hne : stripped ≠ [] := by
      intro hempty
      rw [hempty] at hname
      exact hname rfl
    obtain ⟨first, hfirst⟩ := Option.ne_none_iff_exists'.1 (mt List.head?_eq_none_iff.1 hne)
    obtain ⟨last, hlast⟩ := Option.ne_none_iff_exists'.1 (mt List.getLast?_eq_none_iff.1 hne)
    refine ⟨hname, dash_dot_chars 0 _ hchars, ?_, ?_⟩
    · exact at_end (dash_dot_first hfirst (strip_first hfirst)) (edge_false (strip_first hfirst))
    · exact at_end (dash_dot_last 0 hlast (edge_false (strip_last hlast)).2)
        (edge_false (strip_last hlast))

/-! ## Targets -/

/-- A character of our own URLs after the host. -/
def plain (c : Char) : Prop := safe_char c = true ∨ c = '/'

/-- A character that is neither safe nor a slash does not occur in our own URLs. -/
theorem plain.ne {c d : Char} (h : plain c) (hd : safe_char d = false) (hslash : d ≠ '/') :
    c ≠ d := by
  rintro rfl
  rcases h with hsafe | rfl
  · rw [hd] at hsafe
    cases hsafe
  · exact hslash rfl

/-- A safe name is quoted as itself, so the URL ends with the very name that was registered. -/
theorem quote_safe {name : Text} (h : ∀ c ∈ name, safe_char c = true) : quote name = name := by
  unfold quote
  calc name.flatMap _ = name.flatMap fun c => [c] := by
        apply List.flatMap_congr
        intro c hc
        rw [if_pos (by rw [h c hc]; rfl)]
    _ = name := List.flatMap_singleton' name

/-- `secrets.token_urlsafe` -/
structure Urlsafe (token : Text) : Prop where
  ne_nil : token ≠ []
  chars : ∀ c ∈ token, c.isAlphanum = true ∨ c = '-' ∨ c = '_'

/-- A token consists of characters that a name may have as well. -/
theorem Urlsafe.safe {token : Text} (h : Urlsafe token) : ∀ c ∈ token, safe_char c = true := by
  intro c hc
  unfold safe_char
  rcases h.chars c hc with halnum | rfl | rfl
  · rw [halnum]
    rfl
  · decide
  · decide

/-- No safe character is a slash, so neither a token nor a name can be split by one. -/
theorem safe_ne_slash {c : Char} (h : safe_char c = true) : c ≠ '/' := by
  rintro rfl
  exact absurd h (by decide)

/-- A text without the separator is its own first part. -/
theorem takeWhile_ne {url : Text} {d : Char} (h : ∀ c ∈ url, c ≠ d) :
    url.takeWhile (· ≠ d) = url :=
  List.takeWhile_eq_self_iff.2 fun c hc => decide_eq_true (h c hc)

/-- `urlsplit` leaves a path of plain characters as it is: it finds neither scheme nor host nor
query nor fragment in it. -/
theorem urlsplit_plain (netloc_ok : Text → Bool) {rest : Text} (hrest : ∀ c ∈ rest, plain c)
    (hsecond : rest.head? ≠ some '/') :
    urlsplit_path netloc_ok ('/' :: rest) = some ('/' :: rest) := by
  have hall : ∀ c ∈ '/' :: rest, plain c := by
    intro c hc
    rcases List.mem_cons.1 hc with rfl | hc
    · exact .inr rfl
    · exact hrest c hc
  have hfilter : ((('/' :: rest).dropWhile fun c => c.toNat ≤ 32).filter fun c =>
      c ≠ '\t' ∧ c ≠ '\r' ∧ c ≠ '\n') = '/' :: rest := by
    rw [List.dropWhile_cons_of_neg (by decide), List.filter_eq_self]
    intro c hc
    have hplain := hall c hc
    exact decide_eq_true ⟨hplain.ne (by decide) (by decide), hplain.ne (by decide) (by decide),
      hplain.ne (by decide) (by decide)⟩
  have hscheme : drop_scheme ('/' :: rest) = '/' :: rest := by
    unfold drop_scheme
    rw [takeWhile_ne fun c hc => (hall c hc).ne (by decide) (by decide)]
    simp
  have hhost : ('/' :: rest).take 2 ≠ ['/', '/'] := by
    intro htwo
    apply hsecond
    cases rest with
    | nil => cases htwo
    | cons c rest =>
      have hc := (List.cons.inj htwo).2
      simp at hc
      rw [hc]
      rfl
  unfold urlsplit_path
  simp only [hfilter, hscheme, hhost, if_false, ne_eq, not_true_eq_false, false_and]
  rw [takeWhile_ne fun c hc => (hall c hc).ne (by decide) (by decide),
    takeWhile_ne fun c hc => (hall c hc).ne (by decide) (by decide)]

/-- A path that does not begin with a slash keeps its front. -/
theorem dropWhile_slash {path : Text} (h : path.head? ≠ some '/') :
    path.dropWhile (· == '/') = path := by
  cases path with
  | nil => rfl
  | cons c rest =>
    refine List.dropWhile_cons_of_neg ?_
    rw [beq_iff_eq]
    rintro rfl
    exact h rfl

/-- The token of a URL is read back from its path, as neither the token nor the name has a slash in
it. -/
theorem requested_token_target {token name : Text} (htoken : Urlsafe token) (hname : Safe name) :
    requested_token (target_of token name) = token := by
  have hparts : path_parts (target_of token name) = ["download".toList, token, name] := by
    have hjoin : target_of token name =
        '/' :: ['/'].intercalate ["download".toList, token, name] := by
      unfold target_of
      rw [quote_safe hname.chars]
      simp [List.intercalate]
    have hends : ((('/' :: ['/'].intercalate ["download".toList, token, name]).dropWhile
        (· == '/')).reverse.dropWhile (· == '/')).reverse =
          ['/'].intercalate ["download".toList, token, name] := by
      have hinner : ['/'].intercalate ["download".toList, token, name] =
          "download/".toList ++ token ++ ['/'] ++ name := by
        simp [List.intercalate]
      have hlast : (['/'].intercalate ["download".toList, token, name]).getLast? ≠ some '/' := by
        rw [hinner, List.getLast?_append_of_ne_nil _ hname.ne_nil]
        intro hslash
        exact safe_ne_slash (hname.chars _ (List.mem_of_getLast? hslash)) rfl
      have hfirst : (['/'].intercalate ["download".toList, token, name]).head? ≠ some '/' := by
        rw [hinner]
        exact (by decide : some 'd' ≠ some '/')
      rw [List.dropWhile_cons_of_pos (by decide), dropWhile_slash hfirst, dropWhile_slash,
        List.reverse_reverse]
      rw [List.head?_reverse]
      exact hlast
    unfold path_parts
    rw [hjoin, hends]
    refine List.splitOn_intercalate '/' ?_ (List.cons_ne_nil _ _)
    intro part hpart
    rcases List.mem_cons.1 hpart with rfl | hpart
    · decide
    · rcases List.mem_cons.1 hpart with rfl | hpart
      · exact fun hmem => safe_ne_slash (htoken.safe _ hmem) rfl
      · rw [List.mem_singleton.1 hpart]
        exact fun hmem => safe_ne_slash (hname.chars _ hmem) rfl
  unfold requested_token
  rw [hparts]
  rfl

/-- The path of one of our own URLs is read back as a whole: it has no query, no fragment and no
parameters. -/
theorem urlsplit_target (netloc_ok : Text → Bool) {token name : Text} (htoken : Urlsafe token)
    (hname : Safe name) :
    urlsplit_path netloc_ok (target_of token name) = some (target_of token name) := by
  have htarget : target_of token name = '/' :: ("download/".toList ++ token ++ '/' :: name) := by
    unfold target_of
    rw [quote_safe hname.chars]
    rfl
  have hall : ("download/".toList.all fun c => c == '/' || safe_char c) = true := by decide
  have hword : ∀ c ∈ "download/".toList, c ≠ '/' → safe_char c = true := by
    intro c hc hslash
    have hc := List.all_eq_true.1 hall c hc
    rwa [beq_false_of_ne hslash, Bool.false_or] at hc
  rw [htarget]
  refine urlsplit_plain netloc_ok (fun c hc => ?_) ?_
  · rcases List.mem_append.1 hc with hc | hc
    · rcases List.mem_append.1 hc with hc | hc
      · by_cases hslash : c = '/'
        · exact .inr hslash
        · exact .inl (hword c hc hslash)
      · exact .inl (htoken.safe c hc)
    · rcases List.mem_cons.1 hc with rfl | hc
      · exact .inr rfl
      · exact .inl (hname.chars c hc)
  · exact (by decide : some 'd' ≠ some '/')

/-! ## Any order of registrations and requests -/

/-- A registration draws a token, if it draws one; a request leaves the server as it is. -/
inductive Event
  | register (files : Files) (token path filename : Text) (content_type : Option Text)
  | request (files : Files) (send_body : Bool) (target : Text)

section Run

variable (guess_type : Text → Option Text)

def step (server : Server) : Event → Server
  | .register files token path filename content_type =>
    match register guess_type server files token path filename content_type with
    | .ok (server', _) => server'
    | .error _ => server
  | .request _ _ _ => server

/-- Random tokens are new ones. -/
def valid (server : Server) : Event → Prop
  | .register _ token _ _ _ => Urlsafe token ∧ server.by_token.lookup token = none
  | .request _ _ _ => True

def start (port : ℕ) : Server := ⟨port, [], []⟩

variable {guess_type}

/-- A file that a registration is about. -/
def Registers (e : Event) (file safe_name : Text) : Prop :=
  ∃ files token path filename content_type,
    e = .register files token path filename content_type ∧ files.resolve path = some file ∧
      files.isfile file = true ∧ safe_filename filename = safe_name

/-- What has been issued resolves, and what resolves has been registered. -/
structure Consistent (events : List Event) (server : Server) : Prop where
  issued : ∀ key token, server.token_by_file.lookup key = some token → Urlsafe token ∧
    ∃ content_type, server.by_token.lookup token = some ⟨key.1, key.2, content_type⟩
  registered : ∀ token item, server.by_token.lookup token = some item →
    ∃ e ∈ events, Registers e item.path item.filename

/-- Nothing that has been issued is taken back. -/
structure Extends (server server' : Server) : Prop where
  port : server'.port = server.port
  by_token : ∀ token item, server.by_token.lookup token = some item →
    server'.by_token.lookup token = some item
  by_file : ∀ key token, server.token_by_file.lookup key = some token →
    server'.token_by_file.lookup key = some token

/-- Doing nothing issues nothing and takes nothing back. -/
theorem Extends.refl (server : Server) : Extends server server :=
  ⟨rfl, fun _ _ h => h, fun _ _ h => h⟩

/-- The cases of `register`: an error, a token there is, or a new one. -/
theorem register_cases {server server' : Server} {files : Files} {token path filename url : Text}
    {content_type : Option Text}
    (h : register guess_type server files token path filename content_type = .ok (server', url)) :
    ∃ file, files.resolve path = some file ∧ files.isfile file = true ∧
      ((∃ token', server.token_by_file.lookup (file, safe_filename filename) = some token' ∧
        server' = server ∧ url = origin server.port ++ target_of token' (safe_filename filename)) ∨
      (server.token_by_file.lookup (file, safe_filename filename) = none ∧
        server' = { server with
          by_token := (token, ⟨file, safe_filename filename,
            content_type_of guess_type content_type (safe_filename filename)⟩) :: server.by_token
          token_by_file := ((file, safe_filename filename), token) :: server.token_by_file } ∧
        url = origin server.port ++ target_of token (safe_filename filename))) := by
  unfold register at h
  cases hfile : files.resolve path with
  | none =>
    rw [hfile] at h
    cases h
  | some file =>
    rw [hfile] at h
    cases hregular : files.isfile file with
    | false =>
      simp [hregular] at h
    | true =>
      simp only [hregular, Bool.not_true, Bool.false_eq_true, if_false] at h
      refine ⟨file, rfl, hregular, ?_⟩
      cases htoken : server.token_by_file.lookup (file, safe_filename filename) with
      | some token' =>
        rw [htoken] at h
        obtain ⟨hserver, hurl⟩ := Prod.mk.inj (Except.ok.inj h)
        exact .inl ⟨token', rfl, hserver.symm, hurl.symm⟩
      | none =>
        rw [htoken] at h
        obtain ⟨hserver, hurl⟩ := Prod.mk.inj (Except.ok.inj h)
        exact .inr ⟨rfl, hserver.symm, hurl.symm⟩

/-- A registration gives a URL and extends the registries, or fails and leaves the server as it is.
-/
theorem step_register (guess_type : Text → Option Text) (server : Server) {files : Files}
    {token path filename : Text} {content_type : Option Text} :
    (∃ server' url, register guess_type server files token path filename content_type =
        .ok (server', url) ∧
      step guess_type server (.register files token path filename content_type) = server') ∨
    step guess_type server (.register files token path filename content_type) = server := by
  cases h : register guess_type server files token path filename content_type with
  | error e => exact .inr (by simp only [step, h])
  | ok r => exact .inl ⟨r.1, r.2, rfl, by simp only [step, h]⟩

/-- A new entry is not found under another key. -/
theorem lookup_cons_of_ne {α β : Type} [BEq α] [LawfulBEq α] {k k' : α} {v : β}
    {rest : List (α × β)} (h : k' ≠ k) : ((k, v) :: rest).lookup k' = rest.lookup k' := by
  rw [List.lookup_cons, beq_eq_false_iff_ne.2 h]

variable (guess_type) in
/-- A step adds to both registries and to both at once; what was issued before resolves as it did.
-/
theorem step_consistent {events : List Event} {server : Server} {e : Event}
    (hvalid : valid server e) (h : Consistent events server) :
    Consistent (events ++ [e]) (step guess_type server e) ∧
      Extends server (step guess_type server e) := by
  have hkeep : Consistent (events ++ [e]) server :=
    ⟨h.issued, fun token item hitem => by
      obtain ⟨e', he', hregisters⟩ := h.registered token item hitem
      exact ⟨e', List.mem_append_left _ he', hregisters⟩⟩
  cases e with
  | request files send_body target => exact ⟨hkeep, .refl _⟩
  | register files token path filename content_type =>
    obtain ⟨hurlsafe, hnew⟩ := hvalid
    rcases step_register guess_type server with ⟨server', url, hregister, hstep⟩ | hstep
    · rw [hstep]
      obtain ⟨file, hfile, hregular, ⟨_, _, rfl, _⟩ | ⟨hunknown, rfl, _⟩⟩ :=
        register_cases hregister
      · exact ⟨hkeep, .refl _⟩
      · -- a new token is one that the server does not know, so the entries before it stay
        have hold : ∀ token' item, server.by_token.lookup token' = some item → token' ≠ token := by
          rintro token' item hitem rfl
          rw [hnew] at hitem
          cases hitem
        refine ⟨⟨fun key token' hkey => ?_, fun token' item hitem => ?_⟩, rfl, ?_, ?_⟩
        · by_cases hsame : key = (file, safe_filename filename)
          · subst hsame
            change List.lookup _ (_ :: _) = _ at hkey
            rw [List.lookup_cons_self] at hkey
            obtain rfl := Option.some.inj hkey
            exact ⟨hurlsafe, _, List.lookup_cons_self⟩
          · change List.lookup _ (_ :: _) = _ at hkey
            rw [lookup_cons_of_ne hsame] at hkey
            obtain ⟨hsafe, content_type', hitem⟩ := h.issued key token' hkey
            exact ⟨hsafe, content_type', (lookup_cons_of_ne (hold _ _ hitem)).trans hitem⟩
        · by_cases hsame : token' = token
          · subst hsame
            change List.lookup _ (_ :: _) = _ at hitem
            rw [List.lookup_cons_self] at hitem
            obtain rfl := Option.some.inj hitem
            exact ⟨_, List.mem_append_right _ List.mem_cons_self, files, _, path, filename,
              content_type, rfl, hfile, hregular, rfl⟩
          · change List.lookup _ (_ :: _) = _ at hitem
            rw [lookup_cons_of_ne hsame] at hitem
            exact hkeep.registered token' item hitem
        · intro token' item hitem
          exact (lookup_cons_of_ne (hold _ _ hitem)).trans hitem
        · intro key token' hkey
          have hne : key ≠ (file, safe_filename filename) := by
            rintro rfl
            rw [hunknown] at hkey
            cases hkey
          exact (lookup_cons_of_ne hne).trans hkey
    · rw [hstep]
      exact ⟨hkeep, .refl _⟩

/-- What was issued stays issued, from step to step. -/
theorem Extends.trans {a b c : Server} (h : Extends a b) (h' : Extends b c) : Extends a c where
  port := h'.port.trans h.port
  by_token token item hitem := h'.by_token token item (h.by_token token item hitem)
  by_file key token hkey := h'.by_file key token (h.by_file key token hkey)

/-- By induction on the events: what is issued resolves, and nothing that was issued is ever taken
back. -/
theorem run_consistent {events : List Event} {server : Server} {before : List Event}
    (hvalid : Runs.Valid (step guess_type) valid server events) (h : Consistent before server) :
    Consistent (before ++ events) (Runs.run (step guess_type) server events) ∧
      Extends server (Runs.run (step guess_type) server events) := by
  induction events generalizing server before with
  | nil =>
    rw [List.append_nil]
    exact ⟨h, .refl _⟩
  | cons e rest ih =>
    obtain ⟨hstep, hextends⟩ := step_consistent guess_type hvalid.1 h
    obtain ⟨hrest, hextends'⟩ := ih hvalid.2 hstep
    rw [List.append_assoc] at hrest
    exact ⟨hrest, hextends.trans hextends'⟩

/-- A server that was just started has issued nothing. -/
theorem consistent_start (port : ℕ) : Consistent [] (start port) := by
  constructor
  · intro key token hkey
    cases hkey
  · intro token item hitem
    cases hitem

/-- A reply is what an item of the registry reads as at the moment of the request: its name, its
type and the content of its file. -/
theorem serve_ok {netloc_ok : Text → Bool} {server : Server} {files : Files} {send_body : Bool}
    {target : Text} {reply : Reply}
    (h : serve netloc_ok server files send_body target = .ok reply) :
    ∃ token item content, server.by_token.lookup token = some item ∧
      files.read item.path = some content ∧ reply = reply_with item send_body content := by
  unfold serve at h
  cases hpath : urlsplit_path netloc_ok target with
  | none =>
    rw [hpath] at h
    cases h
  | some path =>
    simp only [hpath] at h
    cases hitem : server.by_token.lookup (requested_token path) with
    | none =>
      rw [hitem] at h
      cases h
    | some item =>
      simp only [hitem] at h
      cases hcontent : files.read item.path with
      | none =>
        rw [hcontent] at h
        cases h
      | some content =>
        simp only [hcontent] at h
        exact ⟨_, item, content, hitem, hcontent, (Response.ok.inj h).symm⟩

/-- In any order of registrations and requests, what is served is a file that was registered, by a
name that is safe in a header; what has been registered is served at its URL from then on, as long
as it can be read; and it keeps that URL. -/
theorem downloads_served {port : ℕ} {events : List Event}
    (hvalid : Runs.Valid (step guess_type) valid (start port) events)
    (netloc_ok : Text → Bool) :
    let server := Runs.run (step guess_type) (start port) events
    (∀ files send_body target reply,
      serve netloc_ok server files send_body target = .ok reply →
      ∃ file safe_name content, (∃ e ∈ events, Registers e file safe_name) ∧ Safe safe_name ∧
        files.read file = some content ∧ reply.content_length = content.length ∧
        reply.content_disposition = disposition safe_name ∧
        reply.body = if send_body then some content else none) ∧
    (∀ before files token path filename content_type after server' url,
      events = before ++ .register files token path filename content_type :: after →
      register guess_type (Runs.run (step guess_type) (start port) before) files token path
        filename content_type = .ok (server', url) →
      ∃ file target item, files.resolve path = some file ∧ url = origin port ++ target ∧
        item.path = file ∧ item.filename = safe_filename filename ∧
        (∀ files' send_body, serve netloc_ok server files' send_body target =
          match files'.read file with
          | none => .not_found "download no longer exists"
          | some content => .ok (reply_with item send_body content)) ∧
        (∀ files' token' path' filename' content_type', files'.resolve path' = some file →
          files'.isfile file = true → safe_filename filename' = safe_filename filename →
          register guess_type server files' token' path' filename' content_type' =
            .ok (server, url))) := by
  intro server
  have hserver : Consistent events server :=
    (run_consistent hvalid (consistent_start port)).1
  have hport : server.port = port := (run_consistent hvalid (consistent_start port)).2.port
  refine ⟨fun files send_body target reply hreply => ?_, ?_⟩
  · obtain ⟨token, item, content, hitem, hcontent, rfl⟩ := serve_ok hreply
    obtain ⟨e, he, hregisters⟩ := hserver.registered token item hitem
    have hsafe : Safe item.filename := by
      obtain ⟨_, _, _, filename, _, _, _, _, hname⟩ := hregisters
      rw [← hname]
      exact safe_filename_safe filename
    exact ⟨item.path, item.filename, content, ⟨e, he, hregisters⟩, hsafe, hcontent, rfl,
      rfl, rfl⟩
  · intro before files token path filename content_type after server' url hevents hregister
    rw [hevents] at hvalid
    set earlier := Runs.run (step guess_type) (start port) before with hearlier
    have hearlier_port : earlier.port = port :=
      (run_consistent (hvalid.left before) (consistent_start port)).2.port
    have hlater := hvalid.right before
    -- the registration leaves its file a token, which is there to the end
    have hissued : ∃ file token', files.resolve path = some file ∧
        url = origin port ++ target_of token' (safe_filename filename) ∧
        server.token_by_file.lookup (file, safe_filename filename) = some token' := by
      have hafter : Extends server' server := by
        have hbefore := (run_consistent (hvalid.left before) (consistent_start port)).1
        have hregistered := (step_consistent guess_type hlater.1 hbefore).1
        have hstep : step guess_type earlier (.register files token path filename content_type) =
            server' := by
          simp only [step, hregister]
        have hrun := (run_consistent hlater.2 hregistered).2
        rw [hstep] at hrun
        have hend : server = Runs.run (step guess_type) server' after := by
          show List.foldl _ _ events = _
          rw [hevents, List.foldl_append, List.foldl_cons]
          exact congrArg (fun s => List.foldl _ s after) hstep
        rw [hend]
        exact hrun
      obtain ⟨file, hfile, _, ⟨token', htoken', rfl, hurl⟩ | ⟨_, rfl, hurl⟩⟩ :=
        register_cases hregister
      · rw [hearlier_port] at hurl
        exact ⟨file, token', hfile, hurl, hafter.by_file _ _ htoken'⟩
      · rw [hearlier_port] at hurl
        exact ⟨file, token, hfile, hurl, hafter.by_file _ _ List.lookup_cons_self⟩
    obtain ⟨file, token', hfile, hurl, hlookup⟩ := hissued
    obtain ⟨hurlsafe, content_type', hitem⟩ := hserver.issued _ _ hlookup
    refine ⟨file, target_of token' (safe_filename filename),
      ⟨file, safe_filename filename, content_type'⟩, hfile, hurl, rfl, rfl,
      fun files' send_body => ?_, ?_⟩
    · unfold serve
      rw [urlsplit_target netloc_ok hurlsafe (safe_filename_safe filename)]
      simp only [requested_token_target hurlsafe (safe_filename_safe filename), hitem]
    · intro files' token₁ path' filename' content_type₁ hfile' hregular hname
      unfold register
      rw [hfile']
      simp only [hregular, hname, hlookup, hport, hurl, Bool.not_true, Bool.false_eq_true, if_false]

end Run

/-- A file that is there, whatever it is asked for by. -/
def one_file : Files := ⟨some, fun _ => true, fun _ => some [1, 2]⟩

/-- The file of the example is registered under a cleaned name and served with its content from the
URL it got. -/
theorem episode_served : ∃ server url target item,
    register (fun _ => none) (start 9092) one_file "aZ-_09".toList "/data/0.mp4".toList
      "episode 1.mp4".toList none = .ok (server, url) ∧ url = origin 9092 ++ target ∧
    item.filename = "episode-1.mp4".toList ∧
    serve (fun _ => true) server one_file true target = .ok (reply_with item true [1, 2]) := by
  have hall : ("aZ-_09".toList.all fun c => c.isAlphanum || c == '-' || c == '_') = true := by
    decide
  have htoken : ∀ c ∈ "aZ-_09".toList, c.isAlphanum = true ∨ c = '-' ∨ c = '_' := fun c hc => by
    simpa [or_assoc] using List.all_eq_true.1 hall c hc
  have hvalid : Runs.Valid (step fun _ => none) valid (start 9092)
      [.register one_file "aZ-_09".toList "/data/0.mp4".toList "episode 1.mp4".toList none] :=
    ⟨⟨⟨by decide, htoken⟩, rfl⟩, trivial⟩
  obtain ⟨_, hserved⟩ := downloads_served hvalid fun _ => true
  obtain ⟨file, target, item, hfile, hurl, _, hname, hserve, _⟩ :=
    hserved [] _ _ _ _ _ [] _ _ rfl rfl
  obtain rfl := Option.some.inj hfile
  refine ⟨_, _, target, item, rfl, hurl, hname.trans (by decide), ?_⟩
  exact hserve one_file true

end DualFlexivControl.Dashboard.Downloads
