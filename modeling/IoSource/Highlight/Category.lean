/-!
# Highlighting categories

The categories stand in order of precedence: where two of them match, the earlier one wins. All but
comments are given by a list of literals.
-/

namespace IoSource

inductive Category
  | selfReference
  | comment
  | operator
  | boolean
  | prototype
  | builtinMessage
  deriving DecidableEq, Repr

namespace Category

def all : List Category := [selfReference, comment, operator, boolean, prototype, builtinMessage]

/-- The name by which a category is written in reports. -/
def label : Category → String
  | selfReference => "self-reference"
  | comment => "comment"
  | operator => "operator"
  | boolean => "boolean-literal"
  | prototype => "prototype-type"
  | builtinMessage => "builtin-message"

def operators : List String := [
  "::=", ":=", "=",
  "==", "!=", "<=", ">=", "<", ">",
  "+", "-", "*", "/", "%", "^", "**",
  "+=", "-=", "*=", "/=",
  "&&", "||", "!",
  "<<", ">>", "&", "|",
  "..", "?", "@", "@@"]

def prototypes : List String := [
  "Array", "AudioDevice", "AudioMixer", "Block", "Box", "Buffer",
  "CFunction", "CGI", "Color", "Curses", "DBM", "DNSResolver",
  "DOConnection", "DOProxy", "DOServer", "Date", "Directory", "Duration",
  "DynLib", "Error", "Exception", "FFT", "File", "Fnmatch", "Font",
  "Future", "GL", "GLE", "GLScissor", "GLU", "GLUCylinder", "GLUQuadric",
  "GLUSphere", "GLUT", "Host", "Image", "Importer", "LinkList", "List",
  "Lobby", "Locals", "MD5", "MP3Decoder", "MP3Encoder", "Map", "Message",
  "Movie", "Notification", "Number", "Object", "OpenGL", "Point",
  "Protos", "Regex", "SGML", "SGMLElement", "SGMLParser", "SQLite",
  "Sequence", "Server", "ShowMessage", "SleepyCat", "SleepyCatCursor",
  "Socket", "SocketManager", "Sound", "Soup", "Store", "String", "Tree",
  "UDPSender", "UPDReceiver", "URL", "User", "Warning", "WeakLink",
  "Random", "BigNum"]

def builtinMessages : List String := [
  "activate", "activeCoroCount", "and", "asString", "block", "break",
  "call", "catch", "clone", "collectGarbage", "compileString", "continue",
  "do", "doFile", "doMessage", "doString", "else", "elseif", "exit",
  "for", "foreach", "foreachReversed", "forward", "getEnvironmentVariable",
  "getSlot", "hasSlot", "if", "ifFalse", "ifNil", "ifNilEval", "ifTrue",
  "isActive", "isNil", "isResumable", "list", "message", "method", "or",
  "parent", "pass", "pause", "perform", "performWithArgList", "print",
  "println", "proto", "raise", "raiseResumable", "removeSlot", "resend",
  "resume", "return", "schedulerSleepSeconds", "sender",
  "setSchedulerSleepSeconds", "setSlot", "shallowCopy", "slotNames",
  "super", "system", "then", "thisBlock", "thisContext", "try", "type",
  "uniqueId", "updateSlot", "wait", "while", "write", "yield"]

/-- The literals of a category; comments have a grammar instead. -/
def words : Category → List String
  | selfReference => ["self"]
  | comment => []
  | operator => operators
  | boolean => ["true", "false", "nil"]
  | prototype => prototypes
  | builtinMessage => builtinMessages

end Category

end IoSource
