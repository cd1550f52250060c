import RequestRouting.Http.Invalid
import RequestRouting.Http.Token

/-!
# Methods

A method is any token; case matters. Nine methods are standard ones, and a method set
has one bit for each of these. A method of one's own is in no set but the full one.
-/

namespace RequestRouting.Http

/-- The method of a request. -/
structure Method where
  name : String
  isToken_name : isToken name = true
  deriving DecidableEq

namespace Method

/-- The method of a name. -/
def ofName (name : String) : Except InvalidValue Method :=
  if h : isToken name = true then .ok ⟨name, h⟩ else .error (.method name)

/-- The method `GET`. -/
def get : Method := ⟨"GET", by decide⟩

/-- The method `HEAD`. -/
def head : Method := ⟨"HEAD", by decide⟩

/-- The method `POST`. -/
def post : Method := ⟨"POST", by decide⟩

/-- The method `PUT`. -/
def put : Method := ⟨"PUT", by decide⟩

/-- The method `DELETE`. -/
def delete : Method := ⟨"DELETE", by decide⟩

/-- The method `PATCH`. -/
def patch : Method := ⟨"PATCH", by decide⟩

/-- The method `OPTIONS`. -/
def options : Method := ⟨"OPTIONS", by decide⟩

/-- The method `TRACE`. -/
def trace : Method := ⟨"TRACE", by decide⟩

/-- The method `CONNECT`. -/
def connect : Method := ⟨"CONNECT", by decide⟩

/-- The standard methods, in the order of their bits. -/
def standard : List Method :=
  [get, head, post, put, delete, patch, options, trace, connect]

end Method

/-- A set of standard methods, one bit for each. -/
structure MethodSet where
  bits : BitVec 9
  deriving DecidableEq, Repr

namespace MethodSet

/-- No method. -/
def empty : MethodSet := ⟨0⟩

/-- All methods. -/
def all : MethodSet := ⟨BitVec.allOnes 9⟩

/-- The set with one standard method; nothing for other methods. -/
def ofMethod (method : Method) : MethodSet :=
  match Method.standard.idxOf? method with
  | some index => ⟨BitVec.twoPow 9 index⟩
  | none => empty

/-- The methods of both sets. -/
def union (first second : MethodSet) : MethodSet := ⟨first.bits ||| second.bits⟩

/-- The methods that both sets have. -/
def inter (first second : MethodSet) : MethodSet := ⟨first.bits &&& second.bits⟩

/-- The methods of the first set that the second does not have. -/
def diff (first second : MethodSet) : MethodSet := ⟨first.bits &&& ~~~second.bits⟩

/-- Whether the first set has all methods of the second. -/
def includes (first second : MethodSet) : Bool := second.bits &&& first.bits == second.bits

/-- Whether a set has all standard methods. -/
def isAll (set : MethodSet) : Bool := set == all

/-- Whether a set has no method. -/
def isEmpty (set : MethodSet) : Bool := set == empty

/-- Whether a request with the method belongs to the set. The full set takes methods
of every name. -/
def accepts (set : MethodSet) (method : Method) : Bool :=
  set.isAll || (!(ofMethod method).isEmpty && set.includes (ofMethod method))

/-- The set of a list of methods. -/
def ofMethods (methods : List Method) : MethodSet :=
  methods.foldl (fun set method => set.union (ofMethod method)) empty

end MethodSet

end RequestRouting.Http
