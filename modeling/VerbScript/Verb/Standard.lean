/-!
# Standard verbs

The ids of the verbs that a host triggers from its usual interactions.
-/

namespace VerbScript.StandardVerb

/-- Looking at something. -/
def lookAt : String := "lookat"

/-- Picking something up. -/
def pickUp : String := "pickup"

/-- Leaving a place. -/
def leave : String := "leave"

/-- Talking to somebody. -/
def talkTo : String := "talkto"

/-- Using something. -/
def use : String := "use"

/-- Going somewhere. -/
def goTo : String := "goto"

/-- Trying something out. -/
def test : String := "test"

/-- Setting a place up when it is entered. -/
def init : String := "init"

end VerbScript.StandardVerb
