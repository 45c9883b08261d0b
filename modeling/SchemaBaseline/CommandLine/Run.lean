import SchemaBaseline.CommandLine.Invocation
import SchemaBaseline.Gate.Visit

/-!
# Carrying out commands

`CommandLine.run` carries out a command line in a tree of files, with a server that may be asked.
Nothing else goes in and nothing else comes out: the `Outcome` holds all that is seen afterwards.
-/

namespace SchemaBaseline.CommandLine

open Files (Path Tree)
open Introspection (AcquireError Client Exchange Server)
open Time (Stamp)

/-- How a command line ends. -/
inductive Exit
  | code (n : Nat)
  | broke (b : Breakdown)
  /-- The settings are not in order. -/
  | badSettings (issues : List Issue)

/-- All that is seen of a command: how it ends, what it prints, what it complains of, the requests
sent and the log, and the files. -/
structure Outcome where
  exit : Exit
  /-- Whether details are to be told. -/
  verbose : Bool
  output : String
  complaints : String
  /-- The client that sends the requests, if the command has one. -/
  client : Option Client
  exchange : Exchange
  tree : Tree

/-- What has been done so far. -/
structure Desk where
  verbose : Bool
  output : String
  complaints : String
  client : Option Client
  exchange : Exchange
  tree : Tree

namespace Desk

/-- Nothing done yet. -/
def start (tree : Tree) : Desk :=
  ⟨false, "", "", none, Exchange.start, tree⟩

def print (d : Desk) (text : String) : Desk :=
  { d with output := d.output ++ text }

def say (d : Desk) (line : String) : Desk :=
  d.print (line ++ "\n")

def complain (d : Desk) (line : String) : Desk :=
  { d with complaints := d.complaints ++ line ++ "\n" }

def note (d : Desk) (entries : List LogEntry) : Desk :=
  { d with exchange := { d.exchange with log := d.exchange.log ++ entries } }

def finish (d : Desk) (exit : Exit) : Outcome :=
  ⟨exit, d.verbose, d.output, d.complaints, d.client, d.exchange, d.tree⟩

/-- Ends in order. -/
def succeed (d : Desk) : Outcome :=
  d.finish (.code 0)

/-- Ends with an error of the library, which is logged. -/
def refuse (d : Desk) (message : String) : Outcome :=
  (d.note [⟨.error, .commandLine, message⟩]).finish (.code 1)

/-- Ends with a breakdown. -/
def giveUp (d : Desk) (b : Breakdown) : Outcome :=
  d.finish (.broke b)

/-! ## Steps -/

/-- Goes on with the schema of the server. -/
def withAcquired (d : Desk) (now : Stamp) (client : Client) (server : Server)
    (go : Desk → Snapshot → Outcome) : Outcome :=
  match client.acquire now server d.exchange with
  | (.ok s, x) => go { d with exchange := x } s
  | (.error (.refused refusal), x) => { d with exchange := x }.refuse refusal.message
  | (.error (.broke b), x) => { d with exchange := x }.giveUp b

/-- Goes on with the stored baseline. -/
def withBaseline (d : Desk) (now : Stamp) (path : Path) (go : Desk → Snapshot → Outcome) :
    Outcome :=
  match Baseline.load now d.tree path with
  | .ok s => go d s
  | .error (.defect defect) => d.refuse (Baseline.LoadError.mk path defect).message
  | .error (.broke b) => d.giveUp b

/-- Ends since a file could not be saved. -/
def unsaved (d : Desk) : Baseline.SaveFailure → Outcome
  | .unsaved e => d.refuse e.message
  | .broke b => d.giveUp b

/-- Stores a snapshot and goes on. -/
def saving (d : Desk) (path : Path) (s : Snapshot) (go : Desk → Outcome) : Outcome :=
  match Baseline.save d.tree path s with
  | (tree, .ok ()) =>
    go (({ d with tree }.note [Baseline.savedEntry path]).say
      s!"JSON schema saved to {path.text}")
  | (tree, .error failure) => { d with tree }.unsaved failure

/-- Stores the text of a schema and goes on. -/
def savingSdl (d : Desk) (path : Path) (s : Snapshot) (go : Desk → Outcome) : Outcome :=
  match Baseline.saveSdl d.tree path s with
  | (tree, .ok ()) => go ({ d with tree }.say s!"SDL schema saved to {path.text}")
  | (tree, .error (.unprintable e)) => { d with tree }.refuse e.message
  | (tree, .error (.unsaved failure)) => { d with tree }.unsaved failure

/-! ## Commands -/

/-- Fetches the schema of a server and stores it, first as a baseline and then as a text. -/
def introspect (d : Desk) (now : Stamp) (client : Client) (server : Server) (json sdl : Path)
    (summary : Bool) : Outcome :=
  let d := d.say s!"Connecting to Suwayomi server at {client.server}..."
  match client.ping server d.exchange with
  | (.error b, x) => { d with exchange := x }.giveUp b
  | (.ok false, x) =>
    (({ d with exchange := x }.complain
      s!"Error: Unable to connect to server at {client.server}").complain
      "Make sure the Suwayomi server is running.").finish (.code 1)
  | (.ok true, x) =>
    { d with exchange := x }.withAcquired now client server fun d s =>
      let d := d.say "Schema introspection successful"
      let d := if summary then (d.say "").say s.summary else d
      d.saving json s fun d => d.savingSdl sdl s succeed

/-- Compares the schema of a server with the baseline. -/
def check (d : Desk) (now : Stamp) (client : Client) (server : Server) (baseline : Path) :
    Outcome :=
  d.withBaseline now baseline fun d expected =>
    d.withAcquired now client server fun d actual =>
      match expected.compare actual with
      | .ok findings => (d.say findings.report).finish (.code (if findings.isValid then 0 else 1))
      | .error e => d.refuse e.message

/-- Writes the baseline as a text: an overview, or the schema, to a file or to the output. -/
def render (d : Desk) (now : Stamp) (baseline : Path) (output : Option Path) (summary : Bool) :
    Outcome :=
  d.withBaseline now baseline fun d s =>
    if summary then (d.print s.summary).succeed
    else match output with
      | some path => d.savingSdl path s succeed
      | none =>
        match s.sdl with
        | .ok text => (d.print text).succeed
        | .error e => d.refuse e.message

/-- Validates in the background and serves until that has ended. -/
def serve (d : Desk) (now : Stamp) (settings : Settings) (client : Client) (server : Server)
    (host : String) (port : Int) :
    Outcome :=
  let d := d.say s!"serving {host}:{port}"
  let site : Gate.Site := ⟨Gate.fresh settings.mode, d.tree, []⟩
  let (site, x) := site.visit now client server .background settings.baselinePath d.exchange
  let site := site.step now .shutdown
  ({ d with exchange := x, tree := site.tree }.note site.log).succeed

end Desk

def Command.run (now : Stamp) (settings : Settings) (server : Server) (d : Desk) :
    Command → Outcome
  | .introspect address json sdl summary =>
    let client := settings.client address 0
    { d with client }.introspect now client server json sdl summary
  | .check address baseline =>
    let client := settings.client address 0
    { d with client }.check now client server baseline
  | .render baseline output summary => d.render now baseline output summary
  | .serve host port =>
    let client := settings.client settings.serverUrl 0
    { d with client }.serve now settings client server host port

/-- How to call the program. -/
def usage : String :=
  s!"usage: {programName} [-h] [-v] " ++ "|".intercalate (CommandName.all.map CommandName.word) ++
    " ...\n"

/-- Carries out a command line. Settings that are not in order come before anything else. -/
def run (now : Stamp) (env : Settings.Environment) (server : Server) (tree : Tree)
    (args : List String) : Outcome :=
  let d := (Desk.start tree).note (Settings.loadLog env [])
  match Settings.load env [] with
  | .bad issues => d.finish (.badSettings issues)
  | .ok settings =>
    match Invocation.parse settings args with
    | .ok invocation =>
      invocation.command.run now settings server { d with verbose := invocation.verbose }
    | .error ⟨_, .helpAsked⟩ => (d.print usage).succeed
    | .error ⟨command, .problem p⟩ => (d.complain (Refusal.message command p)).finish (.code 2)

end SchemaBaseline.CommandLine
