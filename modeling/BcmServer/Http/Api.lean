import BcmServer.Util.Text

/-!
# BcmServer.Http.Api — verbs and APIs

An API is a verb and a path pattern. Its text, the path followed by the verb in
lower case, is what the API limiter looks requests up by.
-/

namespace BcmServer.Http

open Util

/-- `http::verb` -/
inductive Verb where
  | unknown | delete_ | get | head | post | put | connect | options | trace | copy | lock
  | mkcol | move | propfind | proppatch | search | unlock | bind | rebind | unbind | acl
  | report | mkactivity | checkout | merge | msearch | notify | subscribe | unsubscribe
  | patch | purge | mkcalendar | link | unlink
deriving DecidableEq, Repr

namespace Verb

/-- `http::to_string` -/
def text : Verb → String
  | unknown => "<unknown>"
  | delete_ => "DELETE"
  | get => "GET"
  | head => "HEAD"
  | post => "POST"
  | put => "PUT"
  | connect => "CONNECT"
  | options => "OPTIONS"
  | trace => "TRACE"
  | copy => "COPY"
  | lock => "LOCK"
  | mkcol => "MKCOL"
  | move => "MOVE"
  | propfind => "PROPFIND"
  | proppatch => "PROPPATCH"
  | search => "SEARCH"
  | unlock => "UNLOCK"
  | bind => "BIND"
  | rebind => "REBIND"
  | unbind => "UNBIND"
  | acl => "ACL"
  | report => "REPORT"
  | mkactivity => "MKACTIVITY"
  | checkout => "CHECKOUT"
  | merge => "MERGE"
  | msearch => "M-SEARCH"
  | notify => "NOTIFY"
  | subscribe => "SUBSCRIBE"
  | unsubscribe => "UNSUBSCRIBE"
  | patch => "PATCH"
  | purge => "PURGE"
  | mkcalendar => "MKCALENDAR"
  | link => "LINK"
  | unlink => "UNLINK"

/-- Every verb but `unknown`. -/
def known : List Verb :=
  [delete_, get, head, post, put, connect, options, trace, copy, lock, mkcol, move, propfind,
    proppatch, search, unlock, bind, rebind, unbind, acl, report, mkactivity, checkout, merge,
    msearch, notify, subscribe, unsubscribe, patch, purge, mkcalendar, link, unlink]

def toBytes (v : Verb) : Bytes := ascii v.text.toList

/-- `http::string_to_verb` -/
def ofBytes (s : Bytes) : Verb := (known.find? fun v => v.toBytes = s).getD unknown

/-- The verb as it stands in the text of an API. -/
def lowerText (v : Verb) : Bytes := v.toBytes.map toLower

end Verb

/-- A verb and a path, or a pattern for paths. -/
structure Api where
  method : Verb
  name : Bytes
deriving DecidableEq, Repr

/-- `bcm::to_string` -/
def Api.toBytes (api : Api) : Bytes :=
  if api.name.isEmpty then [] else api.name ++ ascii ['/'] ++ api.method.lowerText

end BcmServer.Http
