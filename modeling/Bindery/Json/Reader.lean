import Bindery.Json.Token

/-!
Reading values from tokens. A stack holds the containers that are open, innermost first, so the
reader is a fold over the tokens; `maxDepth` bounds the stack. Members of the outermost object can
be passed over by their names. What is passed over has to be well formed, but it may nest as deep as
it likes and hold strings and numbers that have no value.
-/

set_option autoImplicit false
set_option relaxedAutoImplicit false

namespace Bindery.Json

/-- A container that is still open, with what it holds so far, last element first. An object also
holds the name whose value is being read. -/
inductive Frame
  | array (done : List Json)
  | object (done : List (String × Json)) (name : String)
  | passedArray
  | passedObject

/-- What the next token has to be. -/
inductive Awaiting
  | value
  | valueOrClose
  | name
  | nameOrClose
  | colon
  | separator
  | nothing (result : Json)

structure ReaderState where
  awaiting : Awaiting
  frames : List Frame

/-- Values nest less deep than this. -/
def maxDepth : Nat := 128

/-- Hands a finished value to the innermost open container. -/
def ReaderState.deliver (value : Json) : List Frame → ReaderState
  | [] => ⟨.nothing value, []⟩
  | .array done :: frames => ⟨.separator, .array (value :: done) :: frames⟩
  | .object done name :: frames => ⟨.separator, .object ((name, value) :: done) name :: frames⟩
  | frames => ⟨.separator, frames⟩

def ReaderState.enter (frame : Frame) (awaiting : Awaiting) (frames : List Frame) :
    Option ReaderState :=
  if frames.length + 1 < maxDepth then some ⟨awaiting, frame :: frames⟩ else none

/-- Ends the innermost container. -/
def ReaderState.closeArray? : List Frame → Option ReaderState
  | .array done :: frames => some (.deliver (.arr done.reverse) frames)
  | .passedArray :: frames => some ⟨.separator, frames⟩
  | _ => none

def ReaderState.closeObject? : List Frame → Option ReaderState
  | .object done _ :: frames => some (.deliver (.obj done.reverse) frames)
  | .passedObject :: frames => some ⟨.separator, frames⟩
  | _ => none

/-- Whether the next value is passed over, where `keep` tells the members of the outermost object
that are read. -/
def isPassed (keep : String → Bool) : List Frame → Bool
  | .passedArray :: _ | .passedObject :: _ => true
  | [.object _ name] => !keep name
  | _ => false

def ReaderState.startValue? (frames : List Frame) : Token → Option ReaderState
  | .scalar value => some (.deliver value frames)
  | .openArray => ReaderState.enter (.array []) .valueOrClose frames
  | .openObject => ReaderState.enter (.object [] "") .nameOrClose frames
  | _ => none

def ReaderState.passValue? (frames : List Frame) : Token → Option ReaderState
  | .scalar _ | .halfPair | .tooLarge => some ⟨.separator, frames⟩
  | .openArray => some ⟨.valueOrClose, .passedArray :: frames⟩
  | .openObject => some ⟨.nameOrClose, .passedObject :: frames⟩
  | _ => none

def ReaderState.setName? (frames : List Frame) (token : Token) : Option ReaderState :=
  match frames, token with
  | .object done _ :: frames, .scalar (.str name) => some ⟨.colon, .object done name :: frames⟩
  | .passedObject :: _, .scalar (.str _) | .passedObject :: _, .halfPair => some ⟨.colon, frames⟩
  | _, _ => none

def ReaderState.step? (keep : String → Bool) (state : ReaderState) (token : Token) :
    Option ReaderState :=
  match state.awaiting, token with
  | .valueOrClose, .closeArray => ReaderState.closeArray? state.frames
  | .value, token | .valueOrClose, token =>
    if isPassed keep state.frames then ReaderState.passValue? state.frames token
    else ReaderState.startValue? state.frames token
  | .nameOrClose, .closeObject => ReaderState.closeObject? state.frames
  | .name, token | .nameOrClose, token => ReaderState.setName? state.frames token
  | .colon, .colon => some { state with awaiting := .value }
  | .separator, .comma =>
    match state.frames with
    | .array _ :: _ | .passedArray :: _ => some { state with awaiting := .value }
    | .object _ _ :: _ | .passedObject :: _ => some { state with awaiting := .name }
    | [] => none
  | .separator, .closeArray => ReaderState.closeArray? state.frames
  | .separator, .closeObject => ReaderState.closeObject? state.frames
  | _, _ => none

/-- The value that a text writes, if it writes exactly one. Of an object, only the members whose
names are kept are read. -/
def readKeeping? (keep : String → Bool) (text : String) : Option Json := do
  let tokens ← tokens? text.toList
  let final ← tokens.foldlM (ReaderState.step? keep) ⟨.value, []⟩
  match final.awaiting with
  | .nothing value => some value
  | _ => none

def read? (text : String) : Option Json := readKeeping? (fun _ ↦ true) text

end Bindery.Json
