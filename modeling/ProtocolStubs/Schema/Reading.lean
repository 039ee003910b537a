import ProtocolStubs.Json.Reader
import ProtocolStubs.Schema.Document
import ProtocolStubs.Text.Lines

set_option autoImplicit false

namespace ProtocolStubs

open Json (Reader)

-- Unknown keys are passed over. Of a repeated key the last value counts, but the lists of domains and
-- of commands grow with each.
def Items.reader : Reader Items :=
  .record default [
    .optional "type" .text fun i kind => { i with kind := kind },
    .optional "$ref" .text fun i reference => { i with reference := reference }]

def Property.reader : Reader Property :=
  .record default [
    .required "name" .text fun p name => { p with name := name },
    .optional "description" .text fun p description => { p with description := description },
    .optional "type" .text fun p kind => { p with kind := kind },
    .optional "$ref" .text fun p reference => { p with reference := reference },
    .optional "enum" (.list .text) fun p values => { p with values := values },
    .optional "items" Items.reader fun p items => { p with items := items },
    .optional "optional" .flag fun p flag => { p with optional := flag },
    .optional "experimental" .flag fun p flag => { p with experimental := flag },
    .optional "deprecated" .flag fun p flag => { p with deprecated := flag }]

def TypeDef.reader : Reader TypeDef :=
  .record default [
    .required "id" .text fun t id => { t with id := id },
    .optional "description" .text fun t description => { t with description := description },
    .optional "type" .text fun t kind => { t with kind := kind },
    .optional "enum" (.list .text) fun t values => { t with values := values },
    .optional "properties" (.list Property.reader) fun t fields => { t with properties := fields },
    .optional "items" Items.reader fun t items => { t with items := items },
    .optional "experimental" .flag fun t flag => { t with experimental := flag },
    .optional "deprecated" .flag fun t flag => { t with deprecated := flag }]

def Command.reader : Reader Command :=
  .record default [
    .required "name" .text fun c name => { c with name := name },
    .optional "description" .text fun c description => { c with description := description },
    .optional "parameters" (.list Property.reader) fun c params => { c with parameters := params },
    .optional "returns" (.list Property.reader) fun c results => { c with returns := results },
    .optional "experimental" .flag fun c flag => { c with experimental := flag },
    .optional "deprecated" .flag fun c flag => { c with deprecated := flag },
    .optional "redirect" .text fun c redirect => { c with redirect := redirect }]

def Event.reader : Reader Event :=
  .record default [
    .required "name" .text fun e name => { e with name := name },
    .optional "description" .text fun e description => { e with description := description },
    .optional "parameters" (.list Property.reader) fun e params => { e with parameters := params },
    .optional "experimental" .flag fun e flag => { e with experimental := flag },
    .optional "deprecated" .flag fun e flag => { e with deprecated := flag }]

def Domain.reader : Reader Domain :=
  .record default [
    .required "domain" .text fun d name => { d with name := name },
    .optional "description" .text fun d description => { d with description := description },
    .optional "experimental" .flag fun d flag => { d with experimental := flag },
    .optional "deprecated" .flag fun d flag => { d with deprecated := flag },
    .optional "dependencies" (.list .text) fun d names => { d with dependencies := names },
    .optional "types" (.list TypeDef.reader) fun d types => { d with types := types },
    .omittable "commands" (.list Command.reader) fun d more =>
      { d with commands := d.commands ++ more },
    .optional "events" (.list Event.reader) fun d events => { d with events := events }]

def Version.reader : Reader Version :=
  .record default [
    .required "major" .text fun v major => { v with major := major },
    .required "minor" .text fun v minor => { v with minor := minor }]

namespace Document

def reader : Reader Document :=
  .record default [
    .optional "version" Version.reader fun doc version => { doc with version := version },
    .required "domains" (.list Domain.reader) fun doc more =>
      { doc with domains := doc.domains ++ more }]

-- A text whose first character after blank space opens a list is a bare list of domains, any other a
-- document.
def parse? (text : String) : Option Document :=
  if Text.startsWith (Text.trimStart text) '[' then
    ((Reader.list Domain.reader).whole? text).map fun domains => ⟨none, domains⟩
  else reader.whole? text

end Document

end ProtocolStubs
