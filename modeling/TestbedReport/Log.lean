import TestbedReport.Arguments.Basic

/-!
# The Log

With the option for it, the program tells on standard error what it asks the
server for. The URL of a request holds the key, so it is redacted first. A line
is written as it is or as a JSON object.

## Main definitions

* `LogFormat.line`: A message as a line.
* `Request.summary`: What a log says about a request.
-/

namespace TestbedReport

/-- A message as a line of the log. -/
def LogFormat.line (format : LogFormat) (message : String) : String :=
  match format with
  | .compact => "DEBUG dcube: " ++ message
  | .json => (Json.object [("level", .text "DEBUG"), ("message", .text message)]).toText

/-- What a log says about a request, without its key. -/
def Request.summary (request : Request) : String :=
  let word := match request.method with
    | .get => "GET "
    | .post => "POST "
    | .delete => "DELETE "
  word ++ request.url.redact.text

end TestbedReport
