/-
This file holds the methods of HTTP requests.
-/

namespace ServiceForge.OpenApi

/-- The methods that an operation is called by. -/
inductive Method where
  | get
  | put
  | post
  | delete
  | patch
  | head
  | options
  | trace
deriving DecidableEq, Repr

namespace Method

/-- All methods, in the order in which the operations of a path are listed. -/
def all : List Method := [get, put, post, delete, patch, head, options, trace]

/-- The name as a key of a path. -/
def name : Method → String
  | get => "get"
  | put => "put"
  | post => "post"
  | delete => "delete"
  | patch => "patch"
  | head => "head"
  | options => "options"
  | trace => "trace"

/-- The name in a request. -/
def wireName : Method → String
  | get => "GET"
  | put => "PUT"
  | post => "POST"
  | delete => "DELETE"
  | patch => "PATCH"
  | head => "HEAD"
  | options => "OPTIONS"
  | trace => "TRACE"

end Method

end ServiceForge.OpenApi
