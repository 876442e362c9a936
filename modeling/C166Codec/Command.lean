import C166Codec.Source.Program
import C166Codec.Listing.Print
/-!
# The command line

Two commands over standard input and output:

* `asm [-b BASE]` assembles the source text read from standard input, loaded at `BASE`
  (hexadecimal, default 0), and writes the code as 16-bit words in hexadecimal;
* `dis [-b BASE] [-l] [-e]` lists the code read from standard input as hexadecimal digit
  pairs: `-l` lists linearly without flow analysis, `-e` lists in the extended window.

A failure is written to standard error, with exit code 1.
-/

namespace C166Codec

/-- A request of the command line. -/
inductive Command where
  | assemble (base : UInt32)
  | disassemble (base : UInt32) (opts : ListingOptions)
  | help

/-- What a command writes and its exit code. -/
structure Outcome where
  out : String
  err : String
  exitCode : UInt32

namespace Command

/-- The usage text. -/
def usage : String :=
  "usage: c166 asm [-b BASE] < source\n       c166 dis [-b BASE] [-l] [-e] < hex\n"

/-- The options after the command word: a base address and the listing switches. -/
def options : List String → UInt32 → ListingOptions → Except String (UInt32 × ListingOptions)
  | [], base, opts => .ok (base, opts)
  | flag :: rest, base, opts =>
    if flag = "-l" || flag = "--linear" then options rest base { opts with linear := true }
    else if flag = "-e" || flag = "--extended" then options rest base { opts with extended := true }
    else if flag = "-b" || flag = "--base" then
      match rest with
      | v :: more =>
        match Text.parseAddress? v with
        | some b => options more b opts
        | none => .error ("Invalid base address: " ++ v)
      | [] => .error "missing base address"
    else .error ("unknown argument: " ++ flag)

/-- The command of the arguments. -/
def parse (args : List String) : Except String Command :=
  match args with
  | "asm" :: rest => do
    let (base, opts) ← options rest 0 {}
    if opts.linear || opts.extended then throw "asm takes only -b" else pure (.assemble base)
  | "dis" :: rest => do
    let (base, opts) ← options rest 0 {}
    pure (.disassemble base opts)
  | _ => .ok .help

/-- Runs a command on the text of standard input. -/
def run : Command → String → Outcome
  | .assemble base, input =>
    match (C166Codec.assemble input base).result with
    | .ok code => ⟨Text.wordHex code ++ "\n", "", 0⟩
    | .error f => ⟨"", f.message ++ "\n", 1⟩
  | .disassemble base opts, input =>
    match Text.parseHexBytes? input with
    | some code => ⟨C166Codec.disassemble code base opts, "", 0⟩
    | none => ⟨"", "the input is not hexadecimal digit pairs\n", 1⟩
  | .help, _ => ⟨usage, "", 0⟩

/-- The outcome of a command line on the text of standard input. -/
def main (args : List String) (input : String) : Outcome :=
  match parse args with
  | .ok c => run c input
  | .error e => ⟨"", e ++ "\n" ++ usage, 1⟩

end Command

end C166Codec
