import Classpath.Fault
import Classpath.Json.Reading
import Classpath.Path
import Classpath.Properties
import Classpath.Schema
import Classpath.Toml.Reading

/-! # Sources — files as they were found

    A source is the path of a file and what came of reading it.  All that
    happens to files after that is a function of their sources. -/

namespace Classpath

/-- A file as it was found. -/
structure Source where
  path : String
  contents : Except IoFault String

namespace Descriptor

/-- Reads a descriptor from its text. -/
def parse (text : String) : Except Fault Descriptor :=
  match Toml.decode reader text with
  | .ok d => .ok d
  | .error cause => .error (.descriptor (.invalid cause))

/-- Reads a descriptor from a file. -/
def ofSource (s : Source) : Except Fault Descriptor :=
  match s.contents with
  | .ok text => parse text
  | .error cause => .error (.descriptor (.unreadable s.path cause))

end Descriptor

namespace Config

/-- Reads a configuration from its text. -/
def parse (text : String) : Except Fault Config :=
  match Toml.decode reader text with
  | .ok c => .ok c
  | .error cause => .error (.config (.invalid cause))

/-- Reads a configuration from a file; without one it is the default. -/
def ofSource? : Option Source → Except Fault Config
  | none => .ok {}
  | some s => match s.contents with
    | .ok text => parse text
    | .error cause => .error (.config (.unreadable cause))

end Config

/-- Reads a format by its name. -/
def Format.ofName (name : String) : Except Fault Format :=
  match Format.parse name with
  | .ok f => .ok f
  | .error lower => .error (.config (.unknownFormat lower))

/-- Reads properties from a file. -/
def Properties.ofSource (s : Source) : Except Fault Properties :=
  match s.contents with
  | .ok text => .ok (parse text)
  | .error cause => .error (.io cause)

end Classpath
